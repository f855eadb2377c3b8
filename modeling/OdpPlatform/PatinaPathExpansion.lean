import OdpPlatform.FirmwareTables
import OdpPlatform.PatinaBootHelpers

/-! # What expand_device_path returns

The search over the handles keeps the first match and refuses a second one, so its outcome is
that of the list of all matches. -/
namespace PatinaPathExpansion

open ByteBuffer DevicePathNodes InteractionProgram InteractionAnswers FirmwareServices FirmwareTables
open PatinaBootHelpers PatinaDevicePath

theorem fromDevicePathNodeIter_no_end [PatinaDevicePath] {nodes : List Node}
    (hno : ∀ node ∈ nodes, node.type ≠ typeEnd) :
    fromDevicePathNodeIter nodes = nodes ++ [endEntire] := by
  rw [fromDevicePathNodeIter_eq, if_neg]
  intro hlast
  exact hno endEntire (List.mem_of_getLast? hlast) rfl

theorem appendDevicePath_no_end [PatinaDevicePath] {nodes : List Node}
    (hno : ∀ node ∈ nodes, node.type ≠ typeEnd) (path : DevicePath) :
    appendDevicePath (fromDevicePathNodeIter nodes) path = nodes ++ path := by
  rw [appendDevicePath_eq, fromDevicePathNodeIter_no_end hno, List.dropLast_concat]

def onlyMatch (remaining : List Node) : List (List Node) → Except EfiError DevicePath
  | [] => .error .notFound
  | [nodes] => .ok (nodes ++ remaining ++ [endEntire])
  | _ => .error .securityViolation

theorem onlyMatch_perm {remaining : List Node} {xs ys : List (List Node)} (h : xs.Perm ys) :
    onlyMatch remaining xs = onlyMatch remaining ys := by
  match xs, h.length_eq with
  | [], hlen => rw [h.nil_eq]
  | [nodes], hlen => rw [List.singleton_perm.mp h]
  | a :: b :: rest, hlen =>
    match ys, hlen with
    | c :: d :: others, _ => rfl

section Expansion

variable [PatinaDevicePath]

/-- `nodes` is `path` up to and including its first node that carries the identity, with no End
node on the way. -/
inductive FirstMatch (target : HardDrive) : DevicePath → List Node → Prop where
  | here {node : Node} {rest : DevicePath} :
      node.type ≠ typeEnd → hardDriveTryFromNode node = some target →
        FirstMatch target (node :: rest) [node]
  | later {node : Node} {rest : DevicePath} {nodes : List Node} :
      node.type ≠ typeEnd → hardDriveTryFromNode node ≠ some target →
        FirstMatch target rest nodes → FirstMatch target (node :: rest) (node :: nodes)

theorem prefixNodes_iff {target : HardDrive} {path : DevicePath} :
    ∀ {nodes : List Node}, prefixNodes target path = some nodes ↔ FirstMatch target path nodes := by
  induction path with
  | nil =>
    intro nodes
    constructor
    · nofun
    · nofun
  | cons node rest ih =>
    intro nodes
    rw [prefixNodes]
    by_cases hend : node.type = typeEnd
    · rw [if_pos hend]
      constructor
      · nofun
      · intro hm
        cases hm with
        | here hno => exact absurd hend hno
        | later hno => exact absurd hend hno
    rw [if_neg hend]
    by_cases htarget : hardDriveTryFromNode node = some target
    · rw [if_pos htarget]
      constructor
      · intro h
        cases h
        exact .here hend htarget
      · intro hm
        cases hm with
        | here => rfl
        | later _ hno => exact absurd htarget hno
    · rw [if_neg htarget]
      constructor
      · intro h
        obtain ⟨tail, htail, rfl⟩ := Option.map_eq_some_iff.mp h
        exact .later hend htarget (ih.mp htail)
      · intro hm
        cases hm with
        | here _ hyes => exact absurd hyes htarget
        | later _ _ hrest =>
          rw [ih.mpr hrest]
          rfl

theorem FirstMatch.no_end {target : HardDrive} {path : DevicePath} {nodes : List Node}
    (hm : FirstMatch target path nodes) : ∀ node ∈ nodes, node.type ≠ typeEnd := by
  induction hm with
  | here hno _ =>
    intro node hnode
    cases List.mem_singleton.mp hnode
    exact hno
  | later hno _ _ ih =>
    intro node hnode
    rcases List.mem_cons.mp hnode with rfl | hnode
    · exact hno
    · exact ih node hnode

/-- The match starts with the path's first node. -/
theorem FirstMatch.head {target : HardDrive} {path : DevicePath} {nodes : List Node}
    (hm : FirstMatch target path nodes) :
    ∃ first rest tail, path = first :: rest ∧ nodes = first :: tail := by
  cases hm with
  | @here node rest _ _ => exact ⟨node, rest, [], rfl, rfl⟩
  | @later node rest nodes _ _ _ => exact ⟨node, rest, nodes, rfl, rfl⟩

theorem remainingNodes_past (nodes : List Node) :
    remainingNodes true nodes = nodes.filter fun node => node.type ≠ typeEnd := by
  induction nodes with
  | nil => rfl
  | cons node rest ih =>
    rw [remainingNodes, Bool.true_or, ih]
    by_cases hend : node.type = typeEnd
    · rw [if_neg (by simp [hend]), List.filter_cons_of_neg (by simp [hend])]
    · rw [if_pos ⟨rfl, hend⟩, List.filter_cons_of_pos (by simp [hend])]

theorem remainingNodes_split {before post : List Node} {hd : Node} {target : HardDrive}
    (hbefore : ∀ node ∈ before, hardDriveTryFromNode node = none)
    (hhd : hardDriveTryFromNode hd = some target) :
    remainingNodes false (before ++ hd :: post) = post.filter fun node => node.type ≠ typeEnd := by
  induction before with
  | nil =>
    rw [List.nil_append, remainingNodes, if_neg nofun, hhd, ← remainingNodes_past]
    rfl
  | cons node before ih =>
    have hnode := hbefore node List.mem_cons_self
    rw [List.cons_append, remainingNodes, if_neg nofun, hnode]
    exact ih fun n hn => hbefore n (List.mem_cons_of_mem _ hn)

theorem findSome_split {before post : List Node} {hd : Node} {target : HardDrive}
    (hbefore : ∀ node ∈ before, hardDriveTryFromNode node = none)
    (hhd : hardDriveTryFromNode hd = some target) :
    (before ++ hd :: post).findSome? hardDriveTryFromNode = some target := by
  rw [List.findSome?_append, List.findSome?_eq_none_iff.mpr hbefore, List.findSome?_cons, hhd]
  rfl

/-- The handle's path up to its first node of the identity. -/
def matchedNodes (tables : Tables) (target : HardDrive) (handle : Handle) : Option (List Node) :=
  (readablePath tables handle).bind (prefixNodes target)

def matchedPaths (tables : Tables) (target : HardDrive) (handles : List Handle) :
    List (List Node) :=
  handles.filterMap (matchedNodes tables target)

def matchStep (tables : Tables) (target : HardDrive) (remaining : DevicePath)
    (matched : Option DevicePath) (handle : Handle) : Except EfiError (Option DevicePath) :=
  match matchedNodes tables target handle with
  | none => .ok matched
  | some nodes =>
    if matched.isSome then .error .securityViolation
    else .ok (some (appendDevicePath (fromDevicePathNodeIter nodes) remaining))

variable {tables : Tables} {base : FirmwareEnv}

theorem yields_matchHandle (target : HardDrive) (remaining : DevicePath)
    (matched : Option DevicePath) (handle : Handle) :
    Yields (tables.env base) (matchHandle target remaining matched handle).run
      (matchStep tables target remaining matched handle) := by
  rw [matchHandle]
  apply (yields_handleProtocolDevicePath handle).lift_bind
  simp only [matchStep, matchedNodes, readablePath]
  cases tables.devicePaths handle with
  | error s => exact yields_done _
  | ok memory =>
    dsimp only
    cases (tryFromPtr memory).bind (prefixNodes target) with
    | none => exact yields_done _
    | some nodes =>
      dsimp only
      cases matched with
      | none => exact yields_done _
      | some path => exact yields_done _

theorem foldlM_matchStep_some {target : HardDrive} {remaining : DevicePath} (path : DevicePath)
    (handles : List Handle) :
    handles.foldlM (matchStep tables target remaining) (some path) =
      if matchedPaths tables target handles = [] then .ok (some path)
      else .error .securityViolation := by
  induction handles with
  | nil => rfl
  | cons handle handles ih =>
    rw [List.foldlM_cons, matchStep]
    unfold matchedPaths at ih ⊢
    cases hmatch : matchedNodes tables target handle with
    | none =>
      rw [List.filterMap_cons_none hmatch]
      exact ih
    | some nodes =>
      rw [List.filterMap_cons_some hmatch, if_neg (List.cons_ne_nil _ _)]
      rfl

theorem foldlM_matchStep_none {target : HardDrive} {remaining : DevicePath}
    (handles : List Handle) :
    handles.foldlM (matchStep tables target remaining) none =
      match matchedPaths tables target handles with
      | [] => .ok none
      | [nodes] => .ok (some (appendDevicePath (fromDevicePathNodeIter nodes) remaining))
      | _ => .error .securityViolation := by
  induction handles with
  | nil => rfl
  | cons handle handles ih =>
    rw [List.foldlM_cons, matchStep]
    simp only [matchedPaths] at ih ⊢
    cases hmatch : matchedNodes tables target handle with
    | none =>
      rw [List.filterMap_cons_none hmatch]
      exact ih
    | some nodes =>
      rw [List.filterMap_cons_some hmatch]
      refine (foldlM_matchStep_some _ handles).trans ?_
      unfold matchedPaths
      cases handles.filterMap (matchedNodes tables target) with
      | nil => rfl
      | cons other others => rfl

theorem matchedPaths_no_end {target : HardDrive} {handles : List Handle} {nodes : List Node}
    (hnodes : nodes ∈ matchedPaths tables target handles) : ∀ node ∈ nodes, node.type ≠ typeEnd := by
  obtain ⟨handle, -, hmatch⟩ := List.mem_filterMap.mp hnodes
  obtain ⟨path, -, hprefix⟩ := Option.bind_eq_some_iff.mp hmatch
  exact (prefixNodes_iff.mp hprefix).no_end

/-- The whole function on a partial path with a HardDrive node. -/
theorem yields_expandDevicePath {before post : List Node} {hd : Node} {target : HardDrive}
    {handles : List Handle} (hshort : isPartialDevicePath (before ++ hd :: post) = true)
    (hbefore : ∀ node ∈ before, hardDriveTryFromNode node = none)
    (hhd : hardDriveTryFromNode hd = some target)
    (hhandles : tables.handles (.byProtocol .devicePath) = .ok handles) :
    Yields (tables.env base) (expandDevicePath (before ++ hd :: post)).run
      (onlyMatch (post.filter fun node => node.type ≠ typeEnd)
        (matchedPaths tables target handles)) := by
  have hreal : hasRealNode (before ++ hd :: post) = true := by
    cases hpath : before ++ hd :: post with
    | nil => simp at hpath
    | cons first rest =>
      rw [hpath] at hshort
      by_cases hfw : IsFw first
      · simp [isPartialDevicePath, hfw] at hshort
      · simp only [isPartialDevicePath, if_neg hfw, Bool.and_eq_true] at hshort
        exact hshort.2
  have hrest : ∀ node ∈ post.filter fun node => node.type ≠ typeEnd, node.type ≠ typeEnd := by
    intro node hnode
    simpa using (List.mem_filter.mp hnode).2
  rw [expandDevicePath, hreal, hshort, if_neg nofun, if_neg nofun, findSome_split hbefore hhd]
  dsimp only
  rw [remainingNodes_split hbefore hhd, fromDevicePathNodeIter_no_end hrest]
  have hlocate : Yields (tables.env base)
      (mapErr (ask (.locateHandleBuffer (.byProtocol .devicePath)))).run (.ok handles) := by
    have hanswer := yields_mapErr (@yields_locateHandleBuffer tables base (.byProtocol .devicePath))
    rwa [hhandles] at hanswer
  apply hlocate.except_bind
  · intro located hlocated
    cases hlocated
    have hstep := @yields_matchHandle _ tables base target
      ((post.filter fun node => node.type ≠ typeEnd) ++ [endEntire])
    have hfold := Yields.except_foldlM hstep handles none
    rw [foldlM_matchStep_none] at hfold
    cases hmatched : matchedPaths tables target handles with
    | nil =>
      rw [hmatched] at hfold
      apply hfold.except_bind
      · intro matched hm
        cases hm
        exact yields_done _
      · nofun
    | cons nodes others =>
      rw [hmatched] at hfold
      cases others with
      | nil =>
        have hmem : nodes ∈ matchedPaths tables target handles := by
          rw [hmatched]
          exact List.mem_cons_self
        have hno := matchedPaths_no_end hmem
        dsimp only at hfold
        rw [appendDevicePath_no_end hno, ← List.append_assoc] at hfold
        apply hfold.except_bind
        · intro matched hm
          cases hm
          exact yields_done _
        · nofun
      | cons other others =>
        apply hfold.except_bind
        · nofun
        · intro e he
          cases he
          rfl
  · nofun

/-- The handle's path reads, and carries the identity before its first End node. -/
def Carries (tables : Tables) (target : HardDrive) (handle : Handle) : Prop :=
  ∃ path nodes, readablePath tables handle = some path ∧ FirstMatch target path nodes

theorem matchedNodes_iff {target : HardDrive} {handle : Handle} {nodes : List Node} :
    matchedNodes tables target handle = some nodes ↔
      ∃ path, readablePath tables handle = some path ∧ FirstMatch target path nodes := by
  rw [matchedNodes, Option.bind_eq_some_iff]
  constructor
  · rintro ⟨path, hpath, hnodes⟩
    exact ⟨path, hpath, prefixNodes_iff.mp hnodes⟩
  · rintro ⟨path, hpath, hmatch⟩
    exact ⟨path, hpath, prefixNodes_iff.mpr hmatch⟩

theorem carries_iff {target : HardDrive} {handle : Handle} :
    (matchedNodes tables target handle).isSome = true ↔ Carries tables target handle := by
  rw [Option.isSome_iff_exists]
  constructor
  · rintro ⟨nodes, hnodes⟩
    obtain ⟨path, hpath, hmatch⟩ := matchedNodes_iff.mp hnodes
    exact ⟨path, nodes, hpath, hmatch⟩
  · rintro ⟨path, nodes, hpath, hmatch⟩
    exact ⟨nodes, matchedNodes_iff.mpr ⟨path, hpath, hmatch⟩⟩

instance (target : HardDrive) : DecidablePred (Carries tables target) := fun _ =>
  decidable_of_iff _ carries_iff

def matchingHandles (tables : Tables) (target : HardDrive) (handles : List Handle) : List Handle :=
  handles.filter fun handle => Carries tables target handle

theorem matchedPaths_matching (target : HardDrive) (handles : List Handle) :
    matchedPaths tables target handles =
        matchedPaths tables target (matchingHandles tables target handles) ∧
      (matchedPaths tables target handles).length =
        (matchingHandles tables target handles).length := by
  induction handles with
  | nil => exact ⟨rfl, rfl⟩
  | cons handle handles ih =>
    simp only [matchedPaths, matchingHandles] at ih ⊢
    cases hmatch : matchedNodes tables target handle with
    | none =>
      have hno : ¬Carries tables target handle := by
        rw [← carries_iff, hmatch]
        nofun
      rw [List.filterMap_cons_none hmatch, List.filter_cons_of_neg (by simpa using hno)]
      exact ih
    | some nodes =>
      have hyes : Carries tables target handle := by
        rw [← carries_iff, hmatch]
        rfl
      rw [List.filterMap_cons_some hmatch, List.filter_cons_of_pos (by simpa using hyes),
        List.filterMap_cons_some hmatch, List.length_cons, List.length_cons, ih.2, ← ih.1]
      exact ⟨rfl, rfl⟩

section Outcomes

variable {target : HardDrive} {handles : List Handle} {remaining : List Node}

theorem onlyMatch_notFound :
    onlyMatch remaining (matchedPaths tables target handles) = .error .notFound ↔
      matchingHandles tables target handles = [] := by
  rw [← List.length_eq_zero_iff, ← (matchedPaths_matching target handles).2]
  match matchedPaths tables target handles with
  | [] => exact iff_of_true rfl rfl
  | [_] => exact iff_of_false nofun nofun
  | _ :: _ :: _ => exact iff_of_false nofun nofun

theorem onlyMatch_securityViolation :
    onlyMatch remaining (matchedPaths tables target handles) = .error .securityViolation ↔
      2 ≤ (matchingHandles tables target handles).length := by
  rw [← (matchedPaths_matching target handles).2]
  match matchedPaths tables target handles with
  | [] => exact iff_of_false nofun (by simp)
  | [_] => exact iff_of_false nofun (by simp)
  | _ :: _ :: _ => exact iff_of_true rfl (by simp)

theorem onlyMatch_ok {path : DevicePath} :
    onlyMatch remaining (matchedPaths tables target handles) = .ok path ↔
      ∃ handle handlePath nodes, matchingHandles tables target handles = [handle] ∧
        readablePath tables handle = some handlePath ∧ FirstMatch target handlePath nodes ∧
          path = nodes ++ remaining ++ [endEntire] := by
  obtain ⟨hsame, hlen⟩ := @matchedPaths_matching _ tables target handles
  constructor
  · intro hok
    have hone : ∃ handle, matchingHandles tables target handles = [handle] := by
      apply List.length_eq_one_iff.mp
      rw [← hlen]
      match hpaths : matchedPaths tables target handles with
      | [] => rw [hpaths] at hok; cases hok
      | [_] => rfl
      | _ :: _ :: _ => rw [hpaths] at hok; cases hok
    obtain ⟨handle, hhandle⟩ := hone
    have hmem : handle ∈ matchingHandles tables target handles := by
      rw [hhandle]
      exact List.mem_cons_self
    obtain ⟨handlePath, nodes, hread, hmatch⟩ :=
      of_decide_eq_true (List.mem_filter.mp hmem).2
    refine ⟨handle, handlePath, nodes, hhandle, hread, hmatch, ?_⟩
    have hnodes := matchedNodes_iff.mpr ⟨handlePath, hread, hmatch⟩
    rw [hsame, hhandle, matchedPaths, List.filterMap_cons_some hnodes] at hok
    exact (Except.ok.inj hok).symm
  · rintro ⟨handle, handlePath, nodes, hhandle, hread, hmatch, rfl⟩
    have hnodes := matchedNodes_iff.mpr ⟨handlePath, hread, hmatch⟩
    rw [hsame, hhandle, matchedPaths, List.filterMap_cons_some hnodes]
    rfl

end Outcomes

/-- A path that starts at the root is returned as it is. -/
theorem yields_expand_full {env : FirmwareEnv} {first : Node} {rest : DevicePath}
    (hroot : first.type = typeHardware ∨ first.type = typeAcpi) :
    Yields env (expandDevicePath (first :: rest)).run (.ok (first :: rest)) := by
  have hreal : hasRealNode (first :: rest) = true := by
    rcases hroot with hroot | hroot
    · rw [hasRealNode, hroot]
      rfl
    · rw [hasRealNode, hroot]
      rfl
  have hfull : isPartialDevicePath (first :: rest) = false := by
    by_cases hfw : IsFw first
    · simp [isPartialDevicePath, hfw]
    · rcases hroot with hroot | hroot
      · simp [isPartialDevicePath, hfw, hroot]
      · simp [isPartialDevicePath, hfw, hroot]
  rw [expandDevicePath, hreal, hfull, if_neg nofun, if_pos rfl]
  exact yields_done _

/-- A short-form path resolves to the one matching partition; order does not matter, and a full
result stays as it is. -/
theorem expand_device_path_exact {before post : List Node} {hd : Node} {target : HardDrive}
    {handles : List Handle} (hshort : isPartialDevicePath (before ++ hd :: post) = true)
    (hbefore : ∀ node ∈ before, hardDriveTryFromNode node = none)
    (hhd : hardDriveTryFromNode hd = some target)
    (hhandles : tables.handles (.byProtocol .devicePath) = .ok handles) (base : FirmwareEnv) :
    ∃ r, Yields (tables.env base) (expandDevicePath (before ++ hd :: post)).run r ∧
      (r = .error .notFound ↔ matchingHandles tables target handles = []) ∧
      (r = .error .securityViolation ↔ 2 ≤ (matchingHandles tables target handles).length) ∧
      ((∃ path, r = .ok path) ↔ (matchingHandles tables target handles).length = 1) ∧
      (∀ path, r = .ok path ↔
        ∃ handle handlePath nodes, matchingHandles tables target handles = [handle] ∧
          readablePath tables handle = some handlePath ∧ FirstMatch target handlePath nodes ∧
            path = nodes ++ (post.filter fun node => node.type ≠ typeEnd) ++ [endEntire]) ∧
      (∀ handles' : List Handle, handles'.Perm handles →
        Yields ((tables.setHandles (.byProtocol .devicePath) (.ok handles')).env base)
          (expandDevicePath (before ++ hd :: post)).run r) ∧
      ∀ path handle first rest, r = .ok path → matchingHandles tables target handles = [handle] →
        readablePath tables handle = some (first :: rest) →
          first.type = typeHardware ∨ first.type = typeAcpi →
            ∀ env : FirmwareEnv, Yields env (expandDevicePath path).run (.ok path) := by
  refine ⟨_, yields_expandDevicePath hshort hbefore hhd hhandles, onlyMatch_notFound,
    onlyMatch_securityViolation, ?_, fun path => onlyMatch_ok, ?_, ?_⟩
  · constructor
    · rintro ⟨path, hok⟩
      obtain ⟨handle, -, -, hone, -⟩ := onlyMatch_ok.mp hok
      rw [hone]
      rfl
    · intro hone
      obtain ⟨handle, hhandle⟩ := List.length_eq_one_iff.mp hone
      have hmem : handle ∈ matchingHandles tables target handles := by
        rw [hhandle]
        exact List.mem_cons_self
      obtain ⟨handlePath, nodes, hread, hmatch⟩ := of_decide_eq_true (List.mem_filter.mp hmem).2
      exact ⟨_, onlyMatch_ok.mpr ⟨handle, handlePath, nodes, hhandle, hread, hmatch, rfl⟩⟩
  · intro handles' hperm
    have hlocate := @setHandles_self tables (.byProtocol .devicePath) (.ok handles')
    have hsame : onlyMatch (post.filter fun node => node.type ≠ typeEnd)
        (matchedPaths tables target handles) = onlyMatch (post.filter fun node => node.type ≠ typeEnd)
          (matchedPaths (tables.setHandles (.byProtocol .devicePath) (.ok handles')) target
            handles') := onlyMatch_perm (hperm.symm.filterMap _)
    rw [hsame]
    exact yields_expandDevicePath hshort hbefore hhd hlocate
  · intro path handle first rest hok hone hread hroot env
    obtain ⟨handle', handlePath, nodes, hone', hread', hmatch, rfl⟩ := onlyMatch_ok.mp hok
    rw [hone] at hone'
    cases hone'
    rw [hread] at hread'
    cases hread'
    obtain ⟨first', rest', tail, hpath, rfl⟩ := hmatch.head
    cases hpath
    exact yields_expand_full hroot

end Expansion

section OnePartition

local instance : PatinaDevicePath := specDevicePath

def rootNode : Node := ⟨typeAcpi, 1, List.replicate 8 0⟩

def partitionNode : Node :=
  ⟨typeMedia, mediaHardDrive, leBytes 1 ++ List.replicate 16 0 ++ List.replicate 16 7 ++ [2, 2]⟩

def partitionIdentity : HardDrive := ⟨1, 2, 2, List.replicate 16 7⟩

def loaderNode : Node := filePathNode "\\a".toList

/-- The path of handle 2 does not read. -/
def onePartition : Tables where
  nvram _ := .error efiNotFound
  handles _ := .ok [1, 2]
  devicePaths
    | 1 => .ok (memoryOf (asBytes [rootNode, partitionNode, endEntire]))
    | _ => .error efiUnsupported

theorem expand_device_path_exact_onePartition :
    Yields (onePartition.env fun _ _ => none)
      (expandDevicePath [partitionNode, loaderNode, endEntire]).run
      (.ok [rootNode, partitionNode, loaderNode, endEntire]) := by
  have hshort : isPartialDevicePath ([] ++ partitionNode :: [loaderNode, endEntire]) = true := by
    decide
  have hhd : hardDriveTryFromNode partitionNode = some partitionIdentity := by decide
  have hone : matchingHandles onePartition partitionIdentity [1, 2] = [1] := by decide +kernel
  have hread : readablePath onePartition 1 = some [rootNode, partitionNode, endEntire] := by
    decide +kernel
  have hprefix : prefixNodes partitionIdentity [rootNode, partitionNode, endEntire] =
      some [rootNode, partitionNode] := by decide
  have hhandles : onePartition.handles (.byProtocol .devicePath) = .ok [1, 2] := rfl
  obtain ⟨r, hr, -, -, -, hok, -⟩ :=
    expand_device_path_exact hshort nofun hhd hhandles fun _ _ => none
  rw [(hok _).mpr ⟨1, _, _, hone, hread, prefixNodes_iff.mp hprefix, rfl⟩] at hr
  exact hr

end OnePartition

end PatinaPathExpansion
