import OdpPlatform.FirmwareTables
import OdpPlatform.PatinaLoadOption

/-! # What discover_boot_options returns -/
namespace PatinaBootDiscovery

open ByteBuffer DevicePathNodes InteractionProgram InteractionAnswers FirmwareServices FirmwareTables
open PatinaBootOptions PatinaLoadOption

def bootOrderBytes (order : List UInt16) : Bytes := order.flatMap leUnit

theorem chunksU16_bootOrderBytes (order : List UInt16) : chunksU16 (bootOrderBytes order) = order := by
  induction order with
  | nil => rfl
  | cons n order ih =>
    have hsplit : bootOrderBytes (n :: order) =
        UInt8.ofNat n.toNat :: UInt8.ofNat (n.toNat / 2 ^ 8) :: bootOrderBytes order := rfl
    rw [hsplit, chunksU16, u16FromLeBytes_leUnit, ih]

theorem length_bootOrderBytes (order : List UInt16) :
    (bootOrderBytes order).length = 2 * order.length := by
  induction order with
  | nil => rfl
  | cons n order ih =>
    have hsplit : bootOrderBytes (n :: order) = leUnit n ++ bootOrderBytes order := rfl
    rw [hsplit, List.length_append, length_leUnit, ih, List.length_cons]
    omega

theorem bootOrderBytes_chunksU16 (bytes : Bytes) (heven : bytes.length % 2 = 0) :
    bootOrderBytes (chunksU16 bytes) = bytes := by
  fun_induction chunksU16 bytes with
  | case1 a b rest ih =>
    have hrest : rest.length % 2 = 0 := by
      simp only [List.length_cons] at heven
      omega
    have hsplit : bootOrderBytes (u16FromLeBytes a b :: chunksU16 rest) =
        leUnit (u16FromLeBytes a b) ++ bootOrderBytes (chunksU16 rest) := rfl
    rw [hsplit, leUnit_u16FromLeBytes, ih hrest]
    rfl
  | case2 bytes hshort =>
    match bytes, hshort with
    | [], _ => rfl
    | [_], _ => simp at heven
    | a :: b :: rest, hshort => exact absurd rfl (hshort a b rest)

theorem foldl_withDevice (rest : List DevicePath) : ∀ config : BootConfig,
    rest.foldl BootConfig.withDevice config =
      { config with devices := config.devices ++ rest } := by
  induction rest with
  | nil =>
    intro config
    rw [List.append_nil]
    rfl
  | cons path rest ih =>
    intro config
    rw [List.foldl_cons, ih]
    simp [BootConfig.withDevice]

section Discovery

variable [PatinaDevicePath]

def optionPath (tables : Tables) (optionNumber : UInt16) : Option DevicePath :=
  match tables.nvram (bootOptionVariableName optionNumber) with
  | .error _ => none
  | .ok bytes => parseLoadOption bytes

def optionPaths (tables : Tables) (order : List UInt16) : List DevicePath :=
  order.filterMap (optionPath tables)

variable {tables : Tables} {base : FirmwareEnv}

theorem yields_addBootOption (paths : List DevicePath) (optionNumber : UInt16) :
    Yields (tables.env base) (addBootOption paths optionNumber)
      (paths ++ (optionPath tables optionNumber).toList) := by
  apply (yields_getVariable (.bootOption optionNumber)).bind
  unfold optionPath variableText
  cases tables.nvram (bootOptionVariableName optionNumber) with
  | error s =>
    rw [Option.toList_none, List.append_nil]
    exact yields_done _
  | ok bytes =>
    dsimp only
    cases parseLoadOption bytes with
    | none =>
      rw [Option.toList_none, List.append_nil]
      exact yields_done _
    | some path => exact yields_done _

def discovered (tables : Tables) (order : List UInt16) : Except EfiError BootConfig :=
  if optionPaths tables order = [] then .error .notFound
  else .ok { devices := optionPaths tables order }

theorem yields_discover_error {s : Status} (hs : tables.nvram (variableText .bootOrder) = .error s) :
    Yields (tables.env base) discoverBootOptions.run (.error ⟨s⟩) := by
  apply (yields_mapErr (yields_getVariable .bootOrder)).except_bind
  · intro bytes hbytes
    rw [hs] at hbytes
    cases hbytes
  · intro e he
    rw [hs] at he
    cases he
    rfl

theorem yields_discover_malformed {bytes : Bytes}
    (hbytes : tables.nvram (variableText .bootOrder) = .ok bytes)
    (hbad : bytes.length % 2 ≠ 0 ∨ bytes = []) :
    Yields (tables.env base) discoverBootOptions.run (.error .notFound) := by
  apply (yields_mapErr (yields_getVariable .bootOrder)).except_bind
  · intro b hb
    rw [hbytes] at hb
    cases hb
    rw [if_pos hbad]
    exact yields_done _
  · intro e he
    rw [hbytes] at he
    cases he

theorem yields_discover {order : List UInt16}
    (horder : tables.nvram (variableText .bootOrder) = .ok (bootOrderBytes order))
    (hne : order ≠ []) :
    Yields (tables.env base) discoverBootOptions.run (discovered tables order) := by
  have hlen := length_bootOrderBytes order
  have hgood : ¬((bootOrderBytes order).length % 2 ≠ 0 ∨ bootOrderBytes order = []) := by
    rintro (hodd | hempty)
    · omega
    · rw [hempty, List.length_nil] at hlen
      exact hne (List.eq_nil_of_length_eq_zero (by omega))
  apply (yields_mapErr (yields_getVariable .bootOrder)).except_bind
  · intro b hb
    rw [horder] at hb
    cases hb
    rw [if_neg hgood, chunksU16_bootOrderBytes]
    apply (Yields.collect yields_addBootOption order []).lift_bind
    rw [List.nil_append]
    unfold discovered optionPaths
    cases order.filterMap (optionPath tables) with
    | nil => exact yields_done _
    | cons first rest =>
      rw [if_neg (List.cons_ne_nil first rest)]
      dsimp only
      rw [foldl_withDevice]
      exact yields_done _
  · intro e he
    rw [horder] at he
    cases he

theorem optionPath_setVariable {m n : UInt16} (hne : m ≠ n) (r : Except Status Bytes) :
    optionPath (tables.setVariable (.bootOption n) r) m = optionPath tables m := by
  have hname : bootOptionVariableName m ≠ variableText (.bootOption n) :=
    fun h => hne (bootOptionVariableName_injective h)
  rw [optionPath, setVariable_other r hname, optionPath]

theorem optionPaths_setBootOrder (order : List UInt16) (r : Except Status Bytes) :
    optionPaths (tables.setVariable .bootOrder r) order = optionPaths tables order := by
  have hpath : optionPath (tables.setVariable .bootOrder r) = optionPath tables := by
    funext n
    rw [optionPath, setVariable_other r (bootOptionVariableName_ne_bootOrder n), optionPath]
  rw [optionPaths, hpath, optionPaths]

theorem optionPaths_filter {n : UInt16} (hn : optionPath tables n = none) (order : List UInt16) :
    optionPaths tables (order.filter (· ≠ n)) = optionPaths tables order := by
  induction order with
  | nil => rfl
  | cons m order ih =>
    simp only [optionPaths] at ih ⊢
    by_cases hm : m = n
    · subst hm
      rw [List.filter_cons_of_neg (by simp), List.filterMap_cons_none hn]
      exact ih
    · rw [List.filter_cons_of_pos (by simpa using hm), List.filterMap_cons, List.filterMap_cons, ih]

/-- Without an entry that gives no path, the outcome is the same. -/
theorem yields_discover_without {order : List UInt16} {n : UInt16}
    (hn : optionPath tables n = none) :
    Yields ((tables.setVariable .bootOrder (.ok (bootOrderBytes (order.filter (· ≠ n))))).env base)
      discoverBootOptions.run (discovered tables order) := by
  by_cases hempty : order.filter (· ≠ n) = []
  · have hnone : optionPaths tables order = [] := by
      rw [← optionPaths_filter hn, hempty]
      rfl
    rw [discovered, if_pos hnone, hempty]
    exact yields_discover_malformed (setVariable_self _ _) (.inr rfl)
  · have hsame : discovered tables order = discovered
        (tables.setVariable .bootOrder (.ok (bootOrderBytes (order.filter (· ≠ n)))))
        (order.filter (· ≠ n)) := by
      rw [discovered, discovered, optionPaths_setBootOrder, optionPaths_filter hn]
    rw [hsame]
    exact yields_discover (setVariable_self _ _) hempty

/-- Complete, ordered and fault isolating, for every content of the variables. -/
theorem discover_boot_options_exact (tables : Tables) (base : FirmwareEnv) :
    (∀ s, tables.nvram (variableText .bootOrder) = .error s →
      Yields (tables.env base) discoverBootOptions.run (.error ⟨s⟩)) ∧
    (∀ bytes, tables.nvram (variableText .bootOrder) = .ok bytes →
      (bytes.length % 2 ≠ 0 ∨ bytes = [] →
        Yields (tables.env base) discoverBootOptions.run (.error .notFound)) ∧
      (bytes.length % 2 = 0 → bytes ≠ [] →
        ∃ order : List UInt16, order ≠ [] ∧ bytes = bootOrderBytes order ∧
          Yields (tables.env base) discoverBootOptions.run (discovered tables order) ∧
          ∀ n, optionPath tables n = none →
            Yields ((tables.setVariable .bootOrder
              (.ok (bootOrderBytes (order.filter (· ≠ n))))).env base)
                discoverBootOptions.run (discovered tables order))) ∧
    ∀ (m n : UInt16) (r : Except Status Bytes), m ≠ n →
      optionPath (tables.setVariable (.bootOption n) r) m = optionPath tables m := by
  refine ⟨fun s hs => yields_discover_error hs, fun bytes hbytes => ⟨?_, ?_⟩, ?_⟩
  · exact yields_discover_malformed hbytes
  · intro heven hne
    have hbytes' := bootOrderBytes_chunksU16 bytes heven
    have horder : chunksU16 bytes ≠ [] := by
      intro hempty
      rw [hempty] at hbytes'
      exact hne hbytes'.symm
    refine ⟨chunksU16 bytes, horder, hbytes'.symm, ?_, ?_⟩
    · exact yields_discover (hbytes.trans (congrArg Except.ok hbytes'.symm)) horder
    · intro n hn
      exact yields_discover_without hn
  · intro m n r hne
    exact optionPath_setVariable hne r

end Discovery

end PatinaBootDiscovery
