import OdpPlatform.DevicePathChain
import OdpPlatform.FirmwareTables
import OdpPlatform.PatinaBootCalls

/-! # Console device lists

The handles are those of all protocols in first-seen order; what is written are their device paths,
one instance behind the other. -/
namespace PatinaConsoleDevices

open ByteBuffer DevicePathNodes DevicePathChain InteractionProgram InteractionContract
open InteractionAnswers FirmwareServices FirmwareTables PatinaBootHelpers PatinaBootCalls
open PatinaDevicePath

def IsEndInstance (n : Node) : Prop := n.type = typeEnd ∧ n.subType = 0x01

instance (n : Node) : Decidable (IsEndInstance n) := inferInstanceAs (Decidable (_ ∧ _))

/-- The node lists between the EndInstance nodes, up to the EndEntire. -/
def instances : DevicePath → List DevicePath
  | [] => [[]]
  | n :: rest =>
    if IsEndEntire n then [[]]
    else if IsEndInstance n then [] :: instances rest
    else
      match instances rest with
      | [] => [[n]]
      | first :: others => (n :: first) :: others

def endInstance : Node := ⟨typeEnd, 0x01, []⟩

theorem instances_ne_nil (p : DevicePath) : instances p ≠ [] := by
  cases p with
  | nil => nofun
  | cons n rest =>
    rw [instances]
    split
    · nofun
    split
    · nofun
    split <;> nofun

theorem appendDevicePathInstances_endInstance [PatinaDevicePath] (multi path : DevicePath) :
    appendDevicePathInstances multi path = multi.dropLast ++ endInstance :: path :=
  appendDevicePathInstances_eq multi path

theorem appendDevicePathInstances_cons [PatinaDevicePath] (n : Node) {rest : DevicePath}
    (hrest : rest ≠ []) (path : DevicePath) :
    appendDevicePathInstances (n :: rest) path = n :: appendDevicePathInstances rest path := by
  rw [appendDevicePathInstances_eq, appendDevicePathInstances_eq,
    List.dropLast_cons_of_ne_nil hrest, List.cons_append]

theorem chain_ne_nil {p : DevicePath} (hp : IsChain p) : p ≠ [] := by
  rintro rfl
  cases hp

theorem instances_append [PatinaDevicePath] {p : DevicePath} (hp : IsChain p) (q : DevicePath) :
    instances (appendDevicePathInstances p q) = instances p ++ instances q := by
  induction hp with
  | @last n hend hfits =>
    rw [appendDevicePathInstances_endInstance, instances, if_pos hend]
    change instances (endInstance :: q) = _
    rw [instances, if_neg (by decide), if_pos (by decide)]
    rfl
  | @cons n rest hend hfits hrest ih =>
    rw [appendDevicePathInstances_cons n (chain_ne_nil hrest), instances, instances, if_neg hend,
      if_neg hend, ih]
    split
    · rfl
    · cases hfirst : instances rest with
      | nil => exact absurd hfirst (instances_ne_nil rest)
      | cons first others => rfl

theorem isChain_appendDevicePathInstances [PatinaDevicePath] {p q : DevicePath} (hp : IsChain p)
    (hq : IsChain q) : IsChain (appendDevicePathInstances p q) := by
  induction hp with
  | last =>
    rw [appendDevicePathInstances_endInstance]
    refine .cons (by decide) ?_ hq
    unfold Node.Fits nodeHdrBytes
    decide
  | @cons n rest hend hfits hrest ih =>
    rw [appendDevicePathInstances_cons n (chain_ne_nil hrest)]
    exact .cons hend hfits ih

section Joined

variable [PatinaDevicePath]

def addPath (result : Option DevicePath) (path : DevicePath) : Option DevicePath :=
  match result with
  | none => some path
  | some multi => some (appendDevicePathInstances multi path)

def joinInstances (paths : List DevicePath) : Option DevicePath := paths.foldl addPath none

theorem joinInstances_snoc (paths : List DevicePath) (path : DevicePath) :
    joinInstances (paths ++ [path]) = addPath (joinInstances paths) path := by
  rw [joinInstances, List.foldl_append]
  rfl

theorem joinInstances_eq_none {paths : List DevicePath} : joinInstances paths = none ↔ paths = [] := by
  rcases List.eq_nil_or_concat paths with rfl | ⟨init, path, rfl⟩
  · exact iff_of_true rfl rfl
  · rw [List.concat_eq_append, joinInstances_snoc]
    apply iff_of_false
    · cases joinInstances init <;> nofun
    · simp

/-- A path holds exactly the instances of the paths that were joined, one behind the other. -/
theorem instances_joinInstances {paths : List DevicePath} (hpaths : ∀ p ∈ paths, IsChain p) :
    ∀ p, joinInstances paths = some p → IsChain p ∧ instances p = paths.flatMap instances := by
  induction paths using List.reverseRecOn with
  | nil => nofun
  | append_singleton init path ih =>
    have hpath := hpaths path (by simp)
    intro p hp
    rw [joinInstances_snoc] at hp
    rw [List.flatMap_append, List.flatMap_singleton]
    cases hinit : joinInstances init with
    | none =>
      rw [hinit] at hp
      cases hp
      rw [joinInstances_eq_none.mp hinit]
      exact ⟨hpath, rfl⟩
    | some multi =>
      rw [hinit] at hp
      cases hp
      obtain ⟨hchain, hinstances⟩ := ih (fun q hq => hpaths q (by simp [hq])) multi hinit
      rw [instances_append hchain, hinstances]
      exact ⟨isChain_appendDevicePathInstances hchain hpath, rfl⟩

end Joined

def writeOf : Event Answer → Option (VariableName × Bytes)
  | ⟨.setVariable name data, _⟩ => some (name, data)
  | _ => none

def writes (τ : FirmwareTrace) : List (VariableName × Bytes) := τ.filterMap writeOf

theorem writes_append (σ τ : FirmwareTrace) : writes (σ ++ τ) = writes σ ++ writes τ :=
  List.filterMap_append

/-- Looking up handles and device paths. -/
def Lookup : Call → Prop
  | .locateHandleBuffer _ | .handleProtocolDevicePath _ => True
  | _ => False

theorem writes_of_lookups {τ : FirmwareTrace} (hτ : ∀ e ∈ τ, Lookup e.call) : writes τ = [] := by
  apply List.filterMap_eq_nil_iff.mpr
  intro e he
  obtain ⟨c, r⟩ := e
  have hlookup := hτ _ he
  cases c with
  | setVariable name data => exact hlookup.elim
  | _ => rfl

section Tables

variable (tables : Tables)

/-- Nothing where the lookup fails. -/
def supporters (guid : Guid) : List Handle :=
  match tables.handles (.byProtocol guid) with
  | .ok handles => handles
  | .error _ => []

def distinctHandles (guids : List Guid) : List Handle :=
  (guids.flatMap (supporters tables)).eraseDups

theorem eraseDups_snoc (xs : List Handle) (x : Handle) :
    (xs ++ [x]).eraseDups = if x ∈ xs then xs.eraseDups else xs.eraseDups ++ [x] := by
  have hone : [x].eraseDups = [x] := by
    rw [List.eraseDups_cons]
    rfl
  rw [List.eraseDups_append]
  split
  next hx => simp [List.removeAll, hx]
  next hx => simp [List.removeAll, hx, hone]

theorem nodup_distinctHandles (guids : List Guid) : (distinctHandles tables guids).Nodup := by
  rw [distinctHandles]
  generalize guids.flatMap (supporters tables) = xs
  induction xs using List.reverseRecOn with
  | nil => exact List.nodup_nil
  | append_singleton xs x ih =>
    rw [eraseDups_snoc]
    split
    · exact ih
    next hx =>
      refine List.nodup_append.mpr ⟨ih, List.nodup_singleton x, ?_⟩
      intro a ha b hb
      cases List.mem_singleton.mp hb
      rintro rfl
      exact hx (List.mem_eraseDups.mp ha)

theorem mem_distinctHandles {guids : List Guid} {handle : Handle} :
    handle ∈ distinctHandles tables guids ↔ ∃ guid ∈ guids, handle ∈ supporters tables guid := by
  rw [distinctHandles, List.mem_eraseDups, List.mem_flatMap]

variable [PatinaDevicePath]

def devicePaths (guids : List Guid) : List DevicePath :=
  (distinctHandles tables guids).filterMap (readablePath tables)

def nextInstance (st : MultiInstance) (handle : Handle) : MultiInstance :=
  if handle ∈ st.seenHandles then st
  else
    { seenHandles := handle :: st.seenHandles
      result :=
        match readablePath tables handle with
        | none => st.result
        | some path => addPath st.result path }

variable {tables} {base : FirmwareEnv}

theorem yields_addInstance (st : MultiInstance) (handle : Handle) :
    Yields (tables.env base) (addInstance st handle) (nextInstance tables st handle) := by
  rw [addInstance, nextInstance]
  split
  · exact yields_done st
  · apply (yields_handleProtocolDevicePath handle).bind
    rw [readablePath]
    cases tables.devicePaths handle with
    | error s => exact yields_done _
    | ok memory =>
      dsimp only
      cases PatinaDevicePath.tryFromPtr memory with
      | none => exact yields_done _
      | some path => cases st.result <;> exact yields_done _

theorem yields_addInstances (st : MultiInstance) (guid : Guid) :
    Yields (tables.env base) (addInstances st guid)
      ((supporters tables guid).foldl (nextInstance tables) st) := by
  apply (yields_locateHandleBuffer (.byProtocol guid)).bind
  rw [supporters]
  cases tables.handles (.byProtocol guid) with
  | error s => exact yields_done st
  | ok handles => exact Yields.foldlM yields_addInstance handles st

structure Collected (tables : Tables) (enumerated : List Handle) (st : MultiInstance) : Prop where
  seen : ∀ handle, handle ∈ st.seenHandles ↔ handle ∈ enumerated
  result : st.result = joinInstances (enumerated.eraseDups.filterMap (readablePath tables))

theorem Collected.next {enumerated : List Handle} {st : MultiInstance}
    (hst : Collected tables enumerated st) (handle : Handle) :
    Collected tables (enumerated ++ [handle]) (nextInstance tables st handle) := by
  rw [nextInstance]
  split
  next hseen =>
    have hmem := (hst.seen handle).mp hseen
    refine ⟨fun other => ?_, ?_⟩
    · rw [hst.seen, List.mem_append, List.mem_singleton]
      exact ⟨.inl, fun h => h.elim id fun heq => heq ▸ hmem⟩
    · rw [eraseDups_snoc, if_pos hmem, hst.result]
  next hseen =>
    have hmem := fun h => hseen ((hst.seen handle).mpr h)
    refine ⟨fun other => ?_, ?_⟩
    · rw [List.mem_cons, hst.seen, List.mem_append, List.mem_singleton, or_comm]
    · rw [eraseDups_snoc, if_neg hmem, List.filterMap_append]
      dsimp only
      cases hpath : readablePath tables handle with
      | none =>
        rw [List.filterMap_cons_none hpath, List.filterMap_nil, List.append_nil]
        exact hst.result
      | some path =>
        rw [List.filterMap_cons_some hpath, List.filterMap_nil, joinInstances_snoc, ← hst.result]

theorem Collected.foldl (handles : List Handle) : ∀ {enumerated : List Handle} {st : MultiInstance},
    Collected tables enumerated st →
      Collected tables (enumerated ++ handles) (handles.foldl (nextInstance tables) st) := by
  induction handles with
  | nil =>
    intro enumerated st hst
    rw [List.append_nil]
    exact hst
  | cons handle rest ih =>
    intro enumerated st hst
    have hrest := ih (hst.next handle)
    rw [List.append_assoc] at hrest
    exact hrest

theorem collected_guids (guids : List Guid) : ∀ {enumerated : List Handle} {st : MultiInstance},
    Collected tables enumerated st →
      Collected tables (enumerated ++ guids.flatMap (supporters tables))
        (guids.foldl (fun st guid => (supporters tables guid).foldl (nextInstance tables) st) st) := by
  induction guids with
  | nil =>
    intro enumerated st hst
    rw [List.flatMap_nil, List.append_nil]
    exact hst
  | cons guid rest ih =>
    intro enumerated st hst
    have hrest := ih (Collected.foldl (supporters tables guid) hst)
    rw [List.append_assoc] at hrest
    exact hrest

theorem yields_buildMultiInstanceDevicePath (guids : List Guid) :
    Yields (tables.env base) (buildMultiInstanceDevicePath guids)
      (joinInstances (devicePaths tables guids)) := by
  have hstart : Collected tables [] {} := ⟨fun _ => Iff.rfl, rfl⟩
  have hdone := collected_guids guids hstart
  rw [List.nil_append] at hdone
  apply (Yields.foldlM yields_addInstances guids {}).bind
  rw [hdone.result]
  exact yields_done _

theorem lookup_buildMultiInstanceDevicePath (guids : List Guid) :
    Only Lookup (buildMultiInstanceDevicePath guids) := by
  have hinstance : ∀ st handle, Only Lookup (addInstance st handle) := by
    intro st handle
    unfold addInstance
    split
    · trivial
    apply only_ask_bind trivial
    intro r
    cases r with
    | error s => trivial
    | ok memory =>
      dsimp only
      split <;> trivial
  have hinstances : ∀ st guid, Only Lookup (addInstances st guid) := by
    intro st guid
    apply only_ask_bind trivial
    intro r
    cases r with
    | error s => trivial
    | ok handles => exact Only.foldlM hinstance handles st
  exact (Only.foldlM hinstances guids {}).bind fun _ => trivial

theorem run_buildMultiInstanceDevicePath (guids : List Guid) (h : FirmwareTrace) :
    ∃ τ, (buildMultiInstanceDevicePath guids).run (tables.env base) h =
      (h ++ τ, some (joinInstances (devicePaths tables guids))) ∧ writes τ = [] := by
  obtain ⟨h', hrun⟩ := yields_buildMultiInstanceDevicePath guids h
  obtain ⟨τ, hτ, hall⟩ :=
    (lookup_buildMultiInstanceDevicePath guids).run (tables.env base) h
  rw [hrun] at hτ
  cases hτ
  exact ⟨τ, hrun, writes_of_lookups hall⟩

def writeTo (name : VariableName) (path : Option DevicePath) : List (VariableName × Bytes) :=
  (path.map fun path => (name, asBytes path)).toList

theorem run_writeConsoleVar
    (hset : ∀ h name data, ∃ r, base h (.setVariable name data) = some r)
    (var : VariableName × List Guid) (h : FirmwareTrace) :
    ∃ τ, (writeConsoleVar () var).run (tables.env base) h = (h ++ τ, some ()) ∧
      writes τ = writeTo var.1 (joinInstances (devicePaths tables var.2)) := by
  obtain ⟨τ, hrun, hτ⟩ :=
    run_buildMultiInstanceDevicePath var.2 h
  rw [writeConsoleVar, Program.run_bind_some _ _ hrun]
  cases joinInstances (devicePaths tables var.2) with
  | none => exact ⟨τ, rfl, hτ⟩
  | some path =>
    obtain ⟨r, hr⟩ := hset (h ++ τ) var.1 (asBytes path)
    have hset' : tables.env base (h ++ τ) (.setVariable var.1 (asBytes path)) = some r := hr
    dsimp only
    rw [ask, Program.call_bind, Program.run_ask_some _ _ _ hset']
    refine ⟨τ ++ [⟨.setVariable var.1 (asBytes path), some r⟩], ?_, ?_⟩
    · rw [List.append_assoc]
      rfl
    · rw [writes_append, hτ]
      rfl

theorem run_writeConsoleVars
    (hset : ∀ h name data, ∃ r, base h (.setVariable name data) = some r)
    (vars : List (VariableName × List Guid)) : ∀ h,
    ∃ τ, (vars.foldlM writeConsoleVar ()).run (tables.env base) h = (h ++ τ, some ()) ∧
      writes τ = vars.flatMap fun var => writeTo var.1 (joinInstances (devicePaths tables var.2)) := by
  induction vars with
  | nil =>
    intro h
    exact ⟨[], by rw [List.append_nil]; rfl, rfl⟩
  | cons var rest ih =>
    intro h
    obtain ⟨σ, hvar, hσ⟩ := run_writeConsoleVar hset var h
    obtain ⟨τ, hrest, hτ⟩ := ih (h ++ σ)
    rw [List.foldlM_cons, Program.run_bind_some _ _ hvar, hrest]
    refine ⟨σ ++ τ, by rw [List.append_assoc], ?_⟩
    rw [writes_append, hσ, hτ, List.flatMap_cons]

end Tables

/-- One instance after another for the distinct handles with a valid path, in the order in which the
protocols first listed them. -/
structure MultiInstanceOf [PatinaDevicePath] (tables : Tables) (guids : List Guid)
    (result : Option DevicePath) : Prop where
  none_iff : result = none ↔ ∀ guid ∈ guids, ∀ handle ∈ supporters tables guid,
    readablePath tables handle = none
  instances_eq : ∀ p, result = some p → IsChain p ∧ instances p =
    ((distinctHandles tables guids).filterMap (readablePath tables)).flatMap instances

theorem multiInstanceOf_devicePaths [L : PatinaDevicePath] (hL : DecodesChains L) (tables : Tables)
    (guids : List Guid) :
    MultiInstanceOf tables guids (joinInstances (devicePaths tables guids)) where
  none_iff := by
    rw [joinInstances_eq_none, devicePaths, List.filterMap_eq_nil_iff]
    constructor
    · intro hnone guid hguid handle hhandle
      exact hnone handle ((mem_distinctHandles tables).mpr ⟨guid, hguid, hhandle⟩)
    · intro hnone handle hhandle
      obtain ⟨guid, hguid, hmem⟩ := (mem_distinctHandles tables).mp hhandle
      exact hnone guid hguid handle hmem
  instances_eq := by
    apply instances_joinInstances
    intro p hp
    obtain ⟨handle, -, hpath⟩ := List.mem_filterMap.mp hp
    rw [readablePath] at hpath
    split at hpath
    · cases hpath
    · exact hL _ p hpath

/-- Every run comes back: each list holds the devices that qualify, and ConIn, ConOut and ErrOut are
each written where there is one, whatever became of the writes before it. -/
theorem console_device_lists [L : PatinaDevicePath] (hL : DecodesChains L) (tables : Tables)
    (base : FirmwareEnv) (hset : ∀ h name data, ∃ r, base h (.setVariable name data) = some r) :
    (∀ guids h, (distinctHandles tables guids).Nodup ∧ ∃ result τ,
      (buildMultiInstanceDevicePath guids).run (tables.env base) h = (h ++ τ, some result) ∧
        MultiInstanceOf tables guids result) ∧
    ∃ conIn conOut errOut, MultiInstanceOf tables [.simpleTextInput] conIn ∧
      MultiInstanceOf tables [.simpleTextOutput, .graphicsOutput] conOut ∧
      MultiInstanceOf tables [.simpleTextOutput] errOut ∧
      ∀ h, ∃ τ, discoverConsoleDevices.run.run (tables.env base) h = (h ++ τ, some (.ok ())) ∧
        writes τ = writeTo .conIn conIn ++ writeTo .conOut conOut ++ writeTo .errOut errOut := by
  refine ⟨fun guids h => ⟨nodup_distinctHandles tables guids, ?_⟩, _, _, _,
    multiInstanceOf_devicePaths hL tables _, multiInstanceOf_devicePaths hL tables _,
    multiInstanceOf_devicePaths hL tables _, fun h => ?_⟩
  · obtain ⟨τ, hrun, -⟩ :=
      run_buildMultiInstanceDevicePath guids h
    exact ⟨_, τ, hrun, multiInstanceOf_devicePaths hL tables guids⟩
  · obtain ⟨τ, hrun, hτ⟩ := run_writeConsoleVars hset consoleVars h
    refine ⟨τ, ?_, ?_⟩
    · rw [discoverConsoleDevices, Program.run_lift, Program.run_bind_some _ _ hrun]
      rfl
    · rw [hτ, consoleVars, List.flatMap_cons, List.flatMap_cons, List.flatMap_cons,
        List.flatMap_nil, List.append_nil, List.append_assoc]

def consoleNode (n : UInt8) : Node := ⟨typeHardware, 0x05, [n]⟩

/-- Handle 2 supports both output protocols, handle 3 has no path, and inputs cannot be listed. -/
def sampleTables : Tables where
  nvram _ := .error efiNotFound
  handles
    | .byProtocol .simpleTextOutput => .ok [1, 2, 3]
    | .byProtocol .graphicsOutput => .ok [2, 4]
    | _ => .error efiNotFound
  devicePaths
    | 3 => .error efiUnsupported
    | handle => .ok (memoryOf (asBytes [consoleNode (UInt8.ofNat handle), endEntire]))

def refusingEnv : FirmwareEnv
  | _, .setVariable _ _ => some (.error efiOutOfResources)
  | _, _ => none

theorem console_device_lists_sample :
    (∀ guids h, (distinctHandles sampleTables guids).Nodup ∧ ∃ result τ,
      (@buildMultiInstanceDevicePath specDevicePath guids).run (sampleTables.env refusingEnv) h =
        (h ++ τ, some result) ∧ @MultiInstanceOf specDevicePath sampleTables guids result) ∧
    ∃ conIn conOut errOut, @MultiInstanceOf specDevicePath sampleTables [.simpleTextInput] conIn ∧
      @MultiInstanceOf specDevicePath sampleTables [.simpleTextOutput, .graphicsOutput] conOut ∧
      @MultiInstanceOf specDevicePath sampleTables [.simpleTextOutput] errOut ∧
      ∀ h, ∃ τ, (@discoverConsoleDevices specDevicePath).run.run (sampleTables.env refusingEnv) h =
          (h ++ τ, some (.ok ())) ∧
        writes τ = writeTo .conIn conIn ++ writeTo .conOut conOut ++ writeTo .errOut errOut :=
  @console_device_lists specDevicePath specDevicePath_decodesChains sampleTables refusingEnv
    fun _ _ _ => ⟨_, rfl⟩

end PatinaConsoleDevices
