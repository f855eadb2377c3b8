import Mathlib.Data.List.Induction
import OdpPlatform.TuiApp

/-! # test-tui: what is typed and what is sent

A command is the text that was typed since its input box was opened. Boxes open on their own tab
only, one at a time, and until the box is closed no key has any other meaning. -/
namespace TuiDialogs

open CharText EcScriptParser TuiApp

variable {I α : Type}

inductive Dialog where
  | tripPoint | fanRpm
  deriving DecidableEq, Repr

namespace Dialog

def tab : Dialog → SelectedTab
  | .tripPoint => .power
  | .fanRpm => .thermal

def index : Dialog → Fin 5
  | .tripPoint => ⟨0, Nat.succ_pos 4⟩
  | .fanRpm => ⟨1, Nat.one_lt_succ_succ 3⟩

def parse [HostDecimal α] : Dialog → Text → Option (Command α)
  | .tripPoint => parseBtp
  | .fanRpm => parseRpm

def popup (app : App I) : Dialog → Popup I
  | .tripPoint => app.modules.power
  | .fanRpm => app.modules.thermal

def setPopup (d : Dialog) (app : App I) (m : Popup I) : App I :=
  match d with
  | .tripPoint => { app with modules := { app.modules with power := m } }
  | .fanRpm => { app with modules := { app.modules with thermal := m } }

@[simp] theorem popup_setPopup (d : Dialog) (app : App I) (m : Popup I) :
    d.popup (d.setPopup app m) = m := by
  cases d <;> rfl

theorem popup_setPopup_of_ne {d d' : Dialog} (h : d' ≠ d) (app : App I) (m : Popup I) :
    d'.popup (d.setPopup app m) = d'.popup app := by
  cases d <;> cases d' <;> first | rfl | exact absurd rfl h

@[simp] theorem setPopup_selectedTab (d : Dialog) (app : App I) (m : Popup I) :
    (d.setPopup app m).selectedTab = app.selectedTab := by
  cases d <;> rfl

@[simp] theorem setPopup_runState (d : Dialog) (app : App I) (m : Popup I) :
    (d.setPopup app m).runState = app.runState := by
  cases d <;> rfl

def handle [TextField I] [HostDecimal α] (d : Dialog) (app : App I) (evt : TerminalEvent) :
    Popup I × Option (Command α) := (d.popup app).handleEvent d.parse evt

theorem passTo_index [TextField I] [HostDecimal α] (app : App I) (d : Dialog)
    (evt : TerminalEvent) : app.passTo (α := α) d.index evt =
      (d.setPopup app (d.handle (α := α) app evt).1, (d.handle app evt).2) := by
  cases d <;> rfl

theorem tab_injective {d d' : Dialog} (h : d.tab = d'.tab) : d = d' := by
  cases d <;> cases d' <;> first | rfl | cases h

end Dialog

def pressed : TerminalEvent → Option KeyCode
  | .key key => if key.kind = .press then some key.code else none
  | .other _ => none

def Opens (evt : TerminalEvent) : Prop :=
  pressed evt = some (.char 's') ∨ pressed evt = some (.char '/')

def Closes (evt : TerminalEvent) : Prop := pressed evt = some .esc ∨ pressed evt = some .enter

def Quits (evt : TerminalEvent) : Prop := pressed evt = some (.char 'q') ∨ pressed evt = some .esc

def edit [TextField I] (input : I) (evt : TerminalEvent) : I :=
  if (pressed evt).isSome then TextField.handleEvent evt input else input

section Boxes

variable [TextField I] {T : Type} {parse : Text → Option T} {m : Popup I} {evt : TerminalEvent}

theorem handleEvent_opens (hm : m.isOpen = false) (h : Opens evt) :
    m.handleEvent parse evt = ({ m with isOpen := true }, none) := by
  cases evt with
  | other code => rcases h with h | h <;> cases h
  | key key =>
    have hshut : ¬m.isOpen = true := by
      rw [hm]
      exact Bool.false_ne_true
    by_cases hkind : key.kind = .press
    · have hcode : key.code = .char 's' ∨ key.code = .char '/' := by
        simpa [Opens, pressed, hkind] using h
      simp only [Popup.handleEvent]
      rw [if_pos hkind, if_neg hshut, if_pos hcode]
    · rcases h with h | h <;> (rw [pressed, if_neg hkind] at h; cases h)

theorem handleEvent_shut (hm : m.isOpen = false) (h : ¬Opens evt) :
    m.handleEvent parse evt = (m, none) := by
  cases evt with
  | other code => rfl
  | key key =>
    have hshut : ¬m.isOpen = true := by
      rw [hm]
      exact Bool.false_ne_true
    by_cases hkind : key.kind = .press
    · have hcode : ¬(key.code = .char 's' ∨ key.code = .char '/') := by
        simpa [Opens, pressed, hkind] using h
      simp only [Popup.handleEvent]
      rw [if_pos hkind, if_neg hshut, if_neg hcode]
    · exact if_neg hkind

theorem handleEvent_esc (hm : m.isOpen = true) (h : pressed evt = some .esc) :
    m.handleEvent parse evt = (⟨false, TextField.blank⟩, none) := by
  cases evt with
  | other code => cases h
  | key key =>
    by_cases hkind : key.kind = .press
    · rw [pressed, if_pos hkind] at h
      simp [Popup.handleEvent, hkind, hm, Option.some.inj h]
    · rw [pressed, if_neg hkind] at h
      cases h

theorem handleEvent_enter (hm : m.isOpen = true) (h : pressed evt = some .enter) :
    m.handleEvent parse evt = (⟨false, (TextField.valueAndReset m.input).2⟩,
      parse (TextField.valueAndReset m.input).1) := by
  cases evt with
  | other code => cases h
  | key key =>
    by_cases hkind : key.kind = .press
    · rw [pressed, if_pos hkind] at h
      simp [Popup.handleEvent, hkind, hm, Option.some.inj h]
    · rw [pressed, if_neg hkind] at h
      cases h

theorem handleEvent_edit (hm : m.isOpen = true) (h : ¬Closes evt) :
    m.handleEvent parse evt = ({ m with input := edit m.input evt }, none) := by
  cases evt with
  | other code => rfl
  | key key =>
    by_cases hkind : key.kind = .press
    · have hcode : key.code ≠ .esc ∧ key.code ≠ .enter := by
        simpa [Closes, pressed, hkind] using h
      have hpress : (pressed (.key key)).isSome = true := by rw [pressed, if_pos hkind]; rfl
      rw [edit, if_pos hpress]
      simp only [Popup.handleEvent]
      rw [if_pos hkind, if_pos hm]
      split
      next hesc => exact absurd hesc hcode.1
      next henter => exact absurd henter hcode.2
      next => rfl
    · rw [edit, pressed, if_neg hkind]
      exact if_neg hkind

end Boxes

/-- An open box has its tab selected, and a box that is not open has no text. -/
structure WellFormed [TextField I] (app : App I) : Prop where
  placed : ∀ d : Dialog, (d.popup app).isOpen = true → app.selectedTab = d.tab
  blank : ∀ d : Dialog, (d.popup app).isOpen = false → TextField.value (d.popup app).input = []

def Browsing (app : App I) : Prop := ∀ d : Dialog, (d.popup app).isOpen = false

theorem WellFormed.only [TextField I] {app : App I} (hw : WellFormed app) {d d' : Dialog}
    (hd : (d.popup app).isOpen = true) (hd' : (d'.popup app).isOpen = true) : d = d' :=
  Dialog.tab_injective ((hw.placed d hd).symm.trans (hw.placed d' hd'))

section OneEvent

variable {app : App I} {evt : TerminalEvent}

theorem openModule [TextField I] {d : Dialog} (hw : WellFormed app) (hd : (d.popup app).isOpen = true) :
    app.selectedTab.moduleIndex.filter app.modules.isPopupOpen = some d.index := by
  have htab := hw.placed d hd
  cases d with
  | tripPoint =>
    rw [htab]
    exact Option.filter_some_pos hd
  | fanRpm =>
    rw [htab]
    exact Option.filter_some_pos hd

theorem openModule_none (hb : Browsing app) :
    app.selectedTab.moduleIndex.filter app.modules.isPopupOpen = none := by
  have hpower : app.modules.power.isOpen = false := hb .tripPoint
  have hthermal : app.modules.thermal.isOpen = false := hb .fanRpm
  cases app.selectedTab <;>
    simp [SelectedTab.moduleIndex, Modules.isPopupOpen, hpower, hthermal]

/-- An open box gets every event, and nothing else does. -/
theorem dispatch_entering [TextField I] [HostDecimal α] {d : Dialog} (hw : WellFormed app)
    (hd : (d.popup app).isOpen = true) (evt : TerminalEvent) :
    app.dispatch (α := α) evt =
      (d.setPopup app (d.handle (α := α) app evt).1, (d.handle app evt).2) := by
  simp only [App.dispatch, openModule hw hd]
  exact d.passTo_index app evt

/-- What an event does where no box is open. -/
structure Browses (app : App I) (evt : TerminalEvent) (app' : App I) : Prop where
  input : ∀ d : Dialog, (d.popup app').input = (d.popup app).input
  opens : ∀ d : Dialog, (d.popup app').isOpen = true ↔ Opens evt ∧ app.selectedTab = d.tab
  stays : Opens evt → app'.selectedTab = app.selectedTab
  quits : app'.runState = .quitting ↔ app.runState = .quitting ∨ Quits evt

theorem browses_of_modules {app' : App I} (hb : Browsing app)
    (hmodules : app'.modules = app.modules) (hevt : ¬Opens evt)
    (hquits : app'.runState = .quitting ↔ app.runState = .quitting ∨ Quits evt) :
    Browses app evt app' := by
  have hpopup : ∀ d : Dialog, d.popup app' = d.popup app := by
    intro d
    cases d with
    | tripPoint => exact congrArg Modules.power hmodules
    | fanRpm => exact congrArg Modules.thermal hmodules
  constructor
  case input =>
    intro d
    rw [hpopup]
  case opens =>
    intro d
    rw [hpopup, hb d]
    exact iff_of_false Bool.false_ne_true fun h => hevt h.1
  case stays => exact fun h => absurd h hevt
  case quits => exact hquits

theorem opens_not_quits (h : Opens evt) : ¬Quits evt := by
  rcases h with h | h
  · rintro (hq | hq) <;> (rw [h] at hq; cases hq)
  · rintro (hq | hq) <;> (rw [h] at hq; cases hq)

/-- The selected tab opens its box, where it has one. -/
theorem browses_tab [TextField I] [HostDecimal α] (hb : Browsing app) (hevt : ¬Quits evt) :
    (app.handleTabEvent (α := α) evt).2 = none ∧
      Browses app evt (app.handleTabEvent (α := α) evt).1 := by
  have hsame : app.runState = .quitting ↔ app.runState = .quitting ∨ Quits evt :=
    ⟨.inl, fun h => h.resolve_right hevt⟩
  by_cases hopens : Opens evt
  · by_cases htab : ∃ d : Dialog, app.selectedTab = d.tab
    · obtain ⟨d, htab⟩ := htab
      have hindex : app.selectedTab.moduleIndex = some d.index := by
        rw [htab]
        cases d <;> rfl
      rw [App.handleTabEvent, hindex]
      change (app.passTo d.index evt).2 = none ∧ Browses app evt (app.passTo d.index evt).1
      rw [Dialog.passTo_index, Dialog.handle, handleEvent_opens (hb d) hopens]
      refine ⟨rfl, ?_⟩
      constructor
      case input =>
        intro d'
        by_cases hd : d' = d
        · rw [hd, Dialog.popup_setPopup]
        · rw [Dialog.popup_setPopup_of_ne hd]
      case opens =>
        intro d'
        by_cases hd : d' = d
        · rw [hd, Dialog.popup_setPopup]
          exact iff_of_true rfl ⟨hopens, htab⟩
        · rw [Dialog.popup_setPopup_of_ne hd, hb d']
          apply iff_of_false Bool.false_ne_true
          intro h
          exact hd (Dialog.tab_injective (h.2.symm.trans htab))
      case stays => exact fun _ => d.setPopup_selectedTab app _
      case quits => rwa [Dialog.setPopup_runState]
    · have hidle : app.handleTabEvent (α := α) evt = (app, none) := by
        cases hcase : app.selectedTab with
        | power => exact absurd ⟨.tripPoint, hcase⟩ htab
        | thermal => exact absurd ⟨.fanRpm, hcase⟩ htab
        | dashboard | rtc | system | usbC =>
          rw [App.handleTabEvent, hcase]
          rfl
      rw [hidle]
      refine ⟨rfl, ⟨fun _ => rfl, ?_, fun _ => rfl, hsame⟩⟩
      intro d
      rw [hb d]
      exact iff_of_false Bool.false_ne_true fun h => htab ⟨d, h.2⟩
  · have hidle : app.handleTabEvent (α := α) evt = (app, none) := by
      cases hcase : app.selectedTab with
      | power =>
        have hshut := @handleEvent_shut _ _ _ (parseBtp (α := α)) _ _ (hb .tripPoint) hopens
        rw [App.handleTabEvent, hcase]
        change app.passTo Dialog.tripPoint.index evt = _
        rw [Dialog.passTo_index]
        exact congrArg (fun x => (Dialog.setPopup .tripPoint app x.1, x.2)) hshut
      | thermal =>
        have hshut := @handleEvent_shut _ _ _ (parseRpm (α := α)) _ _ (hb .fanRpm) hopens
        rw [App.handleTabEvent, hcase]
        change app.passTo Dialog.fanRpm.index evt = _
        rw [Dialog.passTo_index]
        exact congrArg (fun x => (Dialog.setPopup .fanRpm app x.1, x.2)) hshut
      | dashboard | rtc | system | usbC =>
        rw [App.handleTabEvent, hcase]
        rfl
    rw [hidle]
    exact ⟨rfl, browses_of_modules hb rfl hopens hsame⟩

/-- Keys that are neither for the tab nor for leaving the program. -/
theorem browses_key {app' : App I} {code : KeyCode} (hb : Browsing app)
    (hcode : pressed evt = some code) (hmodules : app'.modules = app.modules)
    (hrun : app'.runState = app.runState)
    (hother : code ∉ [KeyCode.char 's', .char '/', .char 'q', .esc]) : Browses app evt app' := by
  simp only [List.mem_cons, List.not_mem_nil, or_false, not_or] at hother
  obtain ⟨hs, hslash, hq, hesc⟩ := hother
  have hopens : ¬Opens evt := by
    rintro (h | h)
    · exact hs (Option.some.inj (hcode.symm.trans h))
    · exact hslash (Option.some.inj (hcode.symm.trans h))
  have hquits : ¬Quits evt := by
    rintro (h | h)
    · exact hq (Option.some.inj (hcode.symm.trans h))
    · exact hesc (Option.some.inj (hcode.symm.trans h))
  apply browses_of_modules hb hmodules hopens
  rw [hrun]
  exact ⟨.inl, fun h => h.resolve_right hquits⟩

theorem browses_quit {app' : App I} (hb : Browsing app) (hquits : Quits evt)
    (hmodules : app'.modules = app.modules) (hrun : app'.runState = .quitting) :
    Browses app evt app' := by
  apply browses_of_modules hb hmodules fun h => opens_not_quits h hquits
  rw [hrun]
  exact iff_of_true rfl (.inr hquits)

theorem handleKey_browses [TextField I] [HostDecimal α] {key : KeyEvent} (hb : Browsing app)
    (hkind : key.kind = .press) : (app.handleKey (α := α) key).2 = none ∧
      Browses app (.key key) (app.handleKey (α := α) key).1 := by
  have hpressed : pressed (.key key) = some key.code := if_pos hkind
  have htab (hquits : ¬Quits (.key key)) := browses_tab (α := α) hb hquits
  have hnot {code : KeyCode} (hcode : key.code = code) (hq : code ≠ .char 'q')
      (hesc : code ≠ .esc) : ¬Quits (.key key) := by
    rw [Quits, hpressed, hcode]
    rintro (h | h)
    · exact hq (Option.some.inj h)
    · exact hesc (Option.some.inj h)
  unfold App.handleKey
  split
  case h_10 hcode => exact ⟨rfl, browses_quit hb (.inl (hpressed.trans (by rw [hcode]))) rfl rfl⟩
  case h_11 hcode => exact ⟨rfl, browses_quit hb (.inr (hpressed.trans (by rw [hcode]))) rfl rfl⟩
  case h_12 hcode =>
    by_cases hlog : app.logVisible = true
    · rw [if_pos hlog]
      exact ⟨rfl, browses_key hb hpressed rfl rfl (by rw [hcode]; decide)⟩
    · rw [if_neg hlog]
      exact htab (hnot hcode (by decide) (by decide))
  case h_13 hcode =>
    by_cases hlog : app.logVisible = true
    · rw [if_pos hlog]
      exact ⟨rfl, browses_key hb hpressed rfl rfl (by rw [hcode]; decide)⟩
    · rw [if_neg hlog]
      exact htab (hnot hcode (by decide) (by decide))
  case h_14 hq hesc _ _ =>
    exact htab (hnot rfl hq hesc)
  all_goals
    rename_i hcode
    exact ⟨rfl, browses_key hb hpressed rfl rfl (by rw [hcode]; decide)⟩

theorem dispatch_browsing [TextField I] [HostDecimal α] (hb : Browsing app)
    (evt : TerminalEvent) : (app.dispatch (α := α) evt).2 = none ∧
      Browses app evt (app.dispatch (α := α) evt).1 := by
  have hidle (hpressed : pressed evt = none) : Browses app evt app := by
    apply browses_of_modules hb rfl
    · rintro (h | h) <;> (rw [hpressed] at h; cases h)
    · refine ⟨.inl, fun h => h.resolve_right ?_⟩
      rintro (h | h) <;> (rw [hpressed] at h; cases h)
  cases evt with
  | other code =>
    have hsame : app.dispatch (α := α) (.other code) = (app, none) := by
      simp only [App.dispatch, openModule_none hb]
    rw [hsame]
    exact ⟨rfl, hidle rfl⟩
  | key key =>
    by_cases hkind : key.kind = .press
    · have hkey : app.dispatch (α := α) (.key key) = app.handleKey key := by
        simp only [App.dispatch, openModule_none hb, if_pos hkind]
      rw [hkey]
      exact handleKey_browses hb hkind
    · have hsame : app.dispatch (α := α) (.key key) = (app, none) := by
        simp only [App.dispatch, openModule_none hb, if_neg hkind]
      rw [hsame]
      exact ⟨rfl, hidle (if_neg hkind)⟩

theorem entering_or_browsing (app : App I) :
    (∃ d : Dialog, (d.popup app).isOpen = true) ∨ Browsing app := by
  by_cases hopen : ∃ d : Dialog, (d.popup app).isOpen = true
  · exact .inl hopen
  · refine .inr fun d => ?_
    have hnot : ¬(d.popup app).isOpen = true := fun h => hopen ⟨d, h⟩
    rwa [Bool.not_eq_true] at hnot

/-- What an event does to an open box. -/
structure Enters [TextField I] [HostDecimal α] (d : Dialog) (app : App I) (evt : TerminalEvent) :
    Prop where
  shuts : Closes evt → (d.handle (α := α) app evt).1.isOpen = false ∧
    TextField.value (d.handle (α := α) app evt).1.input = []
  edits : ¬Closes evt →
    d.handle (α := α) app evt = (⟨true, edit (d.popup app).input evt⟩, none)
  sends : ∀ cmd : Command α, (d.handle app evt).2 = some cmd ↔
    pressed evt = some .enter ∧ d.parse (TextField.value (d.popup app).input) = some cmd

theorem enters [TextField I] [LawfulTextField I] [HostDecimal α] {d : Dialog}
    (hd : (d.popup app).isOpen = true) (evt : TerminalEvent) : Enters (α := α) d app evt := by
  by_cases henter : pressed evt = some .enter
  · have hhandle : d.handle (α := α) app evt = _ := handleEvent_enter hd henter
    constructor
    case shuts =>
      intro _
      rw [hhandle]
      exact ⟨rfl, LawfulTextField.value_reset _⟩
    case edits => exact fun h => absurd (.inr henter) h
    case sends =>
      intro cmd
      rw [hhandle, LawfulTextField.value_taken]
      exact ⟨fun h => ⟨henter, h⟩, fun h => h.2⟩
  · by_cases hesc : pressed evt = some .esc
    · have hhandle : d.handle (α := α) app evt = _ := handleEvent_esc hd hesc
      constructor
      case shuts =>
        intro _
        rw [hhandle]
        exact ⟨rfl, LawfulTextField.value_blank⟩
      case edits => exact fun h => absurd (.inl hesc) h
      case sends =>
        intro cmd
        rw [hhandle]
        exact iff_of_false nofun fun h => henter h.1
    · have hcloses : ¬Closes evt := by
        rintro (h | h)
        · exact hesc h
        · exact henter h
      have hhandle : d.handle (α := α) app evt = (⟨true, edit (d.popup app).input evt⟩, none) := by
        have hedit := @handleEvent_edit _ _ _ (d.parse (α := α)) _ _ hd hcloses
        rwa [hd] at hedit
      constructor
      case shuts => exact fun h => absurd h hcloses
      case edits => exact fun _ => hhandle
      case sends =>
        intro cmd
        rw [hhandle]
        exact iff_of_false nofun fun h => henter h.1

theorem wellFormed_dispatch [TextField I] [LawfulTextField I] [HostDecimal α]
    (hw : WellFormed app) (evt : TerminalEvent) : WellFormed (app.dispatch (α := α) evt).1 := by
  rcases entering_or_browsing app with ⟨d, hd⟩ | hb
  · have henters := enters (α := α) hd evt
    rw [dispatch_entering hw hd]
    constructor
    case placed =>
      intro d' hd'
      rw [Dialog.setPopup_selectedTab]
      by_cases hsame : d' = d
      · rw [hsame]
        exact hw.placed d hd
      · rw [Dialog.popup_setPopup_of_ne hsame] at hd'
        exact hw.placed d' hd'
    case blank =>
      intro d' hd'
      by_cases hsame : d' = d
      · subst hsame
        rw [Dialog.popup_setPopup] at hd' ⊢
        by_cases hcloses : Closes evt
        · exact (henters.shuts hcloses).2
        · rw [henters.edits hcloses] at hd'
          cases hd'
      · rw [Dialog.popup_setPopup_of_ne hsame] at hd' ⊢
        exact hw.blank d' hd'
  · obtain ⟨-, hbrowses⟩ := dispatch_browsing (α := α) hb evt
    constructor
    case placed =>
      intro d hd
      obtain ⟨hopens, htab⟩ := (hbrowses.opens d).mp hd
      rw [hbrowses.stays hopens]
      exact htab
    case blank =>
      intro d _
      rw [hbrowses.input]
      exact hw.blank d (hb d)

end OneEvent

section Sessions

variable [TextField I] [HostDecimal α]

variable (I α) in
def after (evts : List TerminalEvent) : App I :=
  evts.foldl (fun app evt => (app.dispatch (α := α) evt).1) App.new

theorem after_snoc (evts : List TerminalEvent) (evt : TerminalEvent) :
    after I α (evts ++ [evt]) = ((after I α evts).dispatch (α := α) evt).1 := by
  rw [after, List.foldl_append]
  rfl

variable (I α) in
def emitted (evts : List TerminalEvent) : List (Command α) :=
  (evts.foldl (fun x evt =>
    ((x.1.dispatch (α := α) evt).1, x.2 ++ (x.1.dispatch evt).2.toList)) (App.new (I := I), [])).2

theorem emitted_snoc (evts : List TerminalEvent) (evt : TerminalEvent) :
    emitted I α (evts ++ [evt]) =
      emitted I α evts ++ ((after I α evts).dispatch evt).2.toList := by
  have hafter : ∀ (evts : List TerminalEvent) (x : App I × List (Command α)),
      (evts.foldl (fun x evt =>
        ((x.1.dispatch (α := α) evt).1, x.2 ++ (x.1.dispatch evt).2.toList)) x).1 =
      evts.foldl (fun app evt => (app.dispatch (α := α) evt).1) x.1 := by
    intro evts
    induction evts with
    | nil => exact fun _ => rfl
    | cons evt evts ih => exact fun x => ih _
  rw [emitted, List.foldl_append, after, ← hafter evts (App.new, [])]
  rfl

theorem wellFormed_after [LawfulTextField I] (evts : List TerminalEvent) :
    WellFormed (after I α evts) := by
  induction evts using List.reverseRecOn with
  | nil =>
    constructor
    case placed => exact fun d hd => by cases d <;> cases hd
    case blank => exact fun d _ => by cases d <;> exact LawfulTextField.value_blank
  | append_singleton evts evt ih =>
    rw [after_snoc]
    exact wellFormed_dispatch ih evt

variable (I α) in
/-- The box was opened by `opening`, and nothing since has closed it. -/
structure Typing (d : Dialog) (evts before : List TerminalEvent) (opening : TerminalEvent)
    (typed : List TerminalEvent) : Prop where
  split : evts = before ++ opening :: typed
  browsing : Browsing (after I α before)
  tab : (after I α before).selectedTab = d.tab
  opens : Opens opening
  kept : ∀ evt ∈ typed, ¬Closes evt

variable (I α) in
def field (d : Dialog) (before typed : List TerminalEvent) : I :=
  typed.foldl edit (d.popup (after I α before)).input

theorem Typing.snoc {d : Dialog} {evts before typed : List TerminalEvent}
    {opening evt : TerminalEvent} (h : Typing I α d evts before opening typed)
    (hevt : ¬Closes evt) : Typing I α d (evts ++ [evt]) before opening (typed ++ [evt]) where
  split := by rw [h.split, List.append_assoc, List.cons_append]
  browsing := h.browsing
  tab := h.tab
  opens := h.opens
  kept := by
    intro x hx
    rcases List.mem_append.mp hx with hx | hx
    · exact h.kept x hx
    · rw [List.mem_singleton.mp hx]
      exact hevt

theorem field_snoc (d : Dialog) (before typed : List TerminalEvent) (evt : TerminalEvent) :
    field I α d before (typed ++ [evt]) = edit (field I α d before typed) evt := by
  rw [field, List.foldl_append]
  rfl

/-- Where the box is open, it holds what was typed into it. -/
theorem Typing.popup [LawfulTextField I] {d : Dialog} {opening : TerminalEvent}
    {before typed : List TerminalEvent} : ∀ {evts : List TerminalEvent},
    Typing I α d evts before opening typed →
      d.popup (after I α evts) = ⟨true, field I α d before typed⟩ := by
  induction typed using List.reverseRecOn with
  | nil =>
    intro evts h
    obtain ⟨-, hbrowses⟩ := dispatch_browsing (α := α) h.browsing opening
    have hopen := (hbrowses.opens d).mpr ⟨h.opens, h.tab⟩
    have hinput := hbrowses.input d
    rw [h.split, after_snoc]
    exact congrArg₂ Popup.mk hopen hinput
  | append_singleton typed evt ih =>
    intro evts h
    have hinit : Typing I α d (before ++ opening :: typed) before opening typed :=
      ⟨rfl, h.browsing, h.tab, h.opens, fun x hx => h.kept x (List.mem_append_left _ hx)⟩
    have hpopup := ih hinit
    have hopen : (d.popup (after I α (before ++ opening :: typed))).isOpen = true := by rw [hpopup]
    have hkept : ¬Closes evt := h.kept evt (List.mem_append_right _ (List.mem_singleton_self evt))
    have hsplit : evts = before ++ opening :: typed ++ [evt] := by
      rw [h.split, List.append_assoc, List.cons_append]
    rw [hsplit, after_snoc, dispatch_entering (wellFormed_after _) hopen, Dialog.popup_setPopup,
      (enters hopen evt).edits hkept, hpopup, field_snoc]

theorem exists_typing [LawfulTextField I] {d : Dialog} (evts : List TerminalEvent)
    (h : (d.popup (after I α evts)).isOpen = true) :
    ∃ before opening typed, Typing I α d evts before opening typed := by
  induction evts using List.reverseRecOn with
  | nil => cases d <;> cases h
  | append_singleton evts evt ih =>
    rw [after_snoc] at h
    rcases entering_or_browsing (after I α evts) with ⟨d', hd'⟩ | hb
    · rw [dispatch_entering (wellFormed_after evts) hd'] at h
      by_cases hsame : d = d'
      · subst hsame
        rw [Dialog.popup_setPopup] at h
        by_cases hcloses : Closes evt
        · rw [((enters hd' evt).shuts hcloses).1] at h
          cases h
        · obtain ⟨before, opening, typed, htyping⟩ := ih hd'
          exact ⟨before, opening, typed ++ [evt], htyping.snoc hcloses⟩
      · rw [Dialog.popup_setPopup_of_ne hsame] at h
        exact absurd ((wellFormed_after evts).only h hd') hsame
    · obtain ⟨hopens, htab⟩ := ((dispatch_browsing (α := α) hb evt).2.opens d).mp h
      exact ⟨evts, evt, [], rfl, hb, htab, hopens, List.forall_mem_nil _⟩

/-- Nothing is sent but what was typed and confirmed. -/
theorem sent_iff [LawfulTextField I] (evts : List TerminalEvent) (evt : TerminalEvent)
    (cmd : Command α) : ((after I α evts).dispatch evt).2 = some cmd ↔
      ∃ d before opening typed, Typing I α d evts before opening typed ∧
        pressed evt = some .enter ∧
          d.parse (TextField.value (field I α d before typed)) = some cmd := by
  constructor
  · intro h
    rcases entering_or_browsing (after I α evts) with ⟨d, hd⟩ | hb
    · rw [dispatch_entering (wellFormed_after evts) hd] at h
      obtain ⟨henter, hparse⟩ := ((enters hd evt).sends cmd).mp h
      obtain ⟨before, opening, typed, htyping⟩ := exists_typing evts hd
      rw [htyping.popup] at hparse
      exact ⟨d, before, opening, typed, htyping, henter, hparse⟩
    · rw [(dispatch_browsing hb evt).1] at h
      cases h
  · rintro ⟨d, before, opening, typed, htyping, henter, hparse⟩
    have hopen : (d.popup (after I α evts)).isOpen = true := by rw [htyping.popup]
    rw [dispatch_entering (wellFormed_after evts) hopen]
    apply ((enters hopen evt).sends cmd).mpr
    rw [htyping.popup]
    exact ⟨henter, hparse⟩

/-- Nothing ends the program but `q` and Esc, and they do not where a box is open. -/
theorem quitting_iff [LawfulTextField I] (evts : List TerminalEvent) :
    (after I α evts).runState = .quitting ↔
      ∃ before evt rest, evts = before ++ evt :: rest ∧ Browsing (after I α before) ∧
        Quits evt := by
  induction evts using List.reverseRecOn with
  | nil =>
    apply iff_of_false
    · intro h
      cases h
    · rintro ⟨before, evt, rest, h, -⟩
      simp at h
  | append_singleton evts evt ih =>
    have hsplit : (∃ before x rest, evts ++ [evt] = before ++ x :: rest ∧
        Browsing (after I α before) ∧ Quits x) ↔
          (after I α evts).runState = .quitting ∨ Browsing (after I α evts) ∧ Quits evt := by
      rw [ih]
      constructor
      · rintro ⟨before, x, rest, h, hb, hx⟩
        rcases List.eq_nil_or_concat rest with rfl | ⟨rest, y, rfl⟩
        · obtain ⟨rfl, hlast⟩ := List.append_inj' h rfl
          cases hlast
          exact .inr ⟨hb, hx⟩
        · rw [List.concat_eq_append, ← List.cons_append, ← List.append_assoc] at h
          obtain ⟨rfl, -⟩ := List.append_inj' h rfl
          exact .inl ⟨before, x, rest, rfl, hb, hx⟩
      · rintro (⟨before, x, rest, rfl, hb, hx⟩ | ⟨hb, hx⟩)
        · exact ⟨before, x, rest ++ [evt], by rw [List.append_assoc, List.cons_append], hb, hx⟩
        · exact ⟨evts, evt, [], rfl, hb, hx⟩
    rw [hsplit, after_snoc]
    rcases entering_or_browsing (after I α evts) with ⟨d, hd⟩ | hb
    · rw [dispatch_entering (wellFormed_after evts) hd, Dialog.setPopup_runState]
      refine ⟨.inl, fun h => h.resolve_right ?_⟩
      rintro ⟨hb, -⟩
      rw [hb d] at hd
      cases hd
    · rw [(dispatch_browsing (α := α) hb evt).2.quits]
      exact or_congr_right (and_iff_right hb).symm

variable (I α) in
/-- A session with the user interface. -/
structure Obeys (evts : List TerminalEvent) : Prop where
  boxes : ∀ d : Dialog, (d.popup (after I α evts)).isOpen = true ↔
    ∃ before opening typed, Typing I α d evts before opening typed
  blank : ∀ d before opening typed, Typing I α d evts before opening typed →
    TextField.value (d.popup (after I α before)).input = []
  placed : ∀ d : Dialog, (d.popup (after I α evts)).isOpen = true →
    (after I α evts).selectedTab = d.tab
  sent : ∀ evt (cmd : Command α), ((after I α evts).dispatch evt).2 = some cmd ↔
    ∃ d before opening typed, Typing I α d evts before opening typed ∧
      pressed evt = some .enter ∧
        d.parse (TextField.value (field I α d before typed)) = some cmd
  quits : (after I α evts).runState = .quitting ↔
    ∃ before evt rest, evts = before ++ evt :: rest ∧ Browsing (after I α before) ∧ Quits evt

theorem session_obeys [LawfulTextField I] (evts : List TerminalEvent) : Obeys I α evts where
  boxes d := by
    constructor
    · exact exists_typing evts
    · rintro ⟨before, opening, typed, h⟩
      rw [h.popup]
  blank d before opening typed h := (wellFormed_after before).blank d (h.browsing d)
  placed := (wellFormed_after evts).placed
  sent := sent_iff evts
  quits := quitting_iff evts

end Sessions

instance : TextField Text where
  blank := []
  value t := t
  handleEvent evt t :=
    match pressed evt with
    | some (.char c) => t ++ [c]
    | _ => t
  valueAndReset t := (t, [])

instance : LawfulTextField Text where
  value_blank := rfl
  value_taken _ := rfl
  value_reset _ := rfl

def press (code : KeyCode) : TerminalEvent := .key ⟨code, 0, .press⟩

/-- The `q` of the second line is part of the text, and the text is no number. -/
theorem session_obeys_two_boxes :
    Obeys Text Float ([.char '2', .char 's', .char '9', .char '0', .enter, .right, .char '/',
      .char '7', .char 'q'].map press) ∧
    (∀ d, (∃ before opening typed, Typing Text Float d ([.char '2', .char 's', .char '9',
      .char '0', .enter, .right, .char '/', .char '7', .char 'q'].map press)
        before opening typed) ↔ d = .fanRpm) := by
  have hobeys := session_obeys (I := Text) (α := Float) ([.char '2', .char 's', .char '9',
    .char '0', .enter, .right, .char '/', .char '7', .char 'q'].map press)
  refine ⟨hobeys, fun d => ?_⟩
  rw [← hobeys.boxes d]
  cases d with
  | tripPoint => exact iff_of_false nofun nofun
  | fanRpm => exact iff_of_true rfl rfl

end TuiDialogs
