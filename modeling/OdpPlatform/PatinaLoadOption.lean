import OdpPlatform.DevicePathChain
import OdpPlatform.PatinaBootOptions

/-! # The load option format of parse_load_option

The grammar of an active EFI_LOAD_OPTION, the parser with its slices and indices checked one by
one, and the encoder that the source's tests build their options with. -/
namespace PatinaLoadOption

open ByteBuffer DevicePathNodes DevicePathChain FirmwareServices PatinaBootOptions PatinaDevicePath

def leUnit (u : UInt16) : Bytes := [UInt8.ofNat u.toNat, UInt8.ofNat (u.toNat / 2 ^ 8)]

@[simp] theorem length_leUnit (u : UInt16) : (leUnit u).length = 2 := rfl

theorem toNat_u16FromLeBytes (a b : UInt8) :
    (u16FromLeBytes a b).toNat = a.toNat + 256 * b.toNat := by
  have ha := a.toNat_lt
  have hb := b.toNat_lt
  have hshift : b.toNat <<< 8 % 2 ^ 16 = b.toNat <<< 8 := by
    rw [Nat.shiftLeft_eq]
    omega
  rw [u16FromLeBytes, UInt16.toNat_or, UInt16.toNat_shiftLeft, UInt8.toNat_toUInt16,
    UInt8.toNat_toUInt16]
  change a.toNat ||| b.toNat <<< 8 % 2 ^ 16 = _
  rw [hshift, Nat.or_comm, ← Nat.shiftLeft_add_eq_or_of_lt ha, Nat.shiftLeft_eq]
  omega

theorem u16FromLeBytes_leUnit (u : UInt16) :
    u16FromLeBytes (UInt8.ofNat u.toNat) (UInt8.ofNat (u.toNat / 2 ^ 8)) = u := by
  have hu := u.toNat_lt
  apply UInt16.toNat_inj.mp
  rw [toNat_u16FromLeBytes, UInt8.toNat_ofNat', UInt8.toNat_ofNat']
  omega

theorem leUnit_u16FromLeBytes (a b : UInt8) : leUnit (u16FromLeBytes a b) = [a, b] := by
  have ha := a.toNat_lt
  have hb := b.toNat_lt
  have hlow : UInt8.ofNat (u16FromLeBytes a b).toNat = a := by
    apply UInt8.toNat_inj.mp
    rw [UInt8.toNat_ofNat', toNat_u16FromLeBytes]
    omega
  have hhigh : UInt8.ofNat ((u16FromLeBytes a b).toNat / 2 ^ 8) = b := by
    apply UInt8.toNat_inj.mp
    rw [UInt8.toNat_ofNat', toNat_u16FromLeBytes]
    omega
  rw [leUnit, hlow, hhigh]

def encodeDescription (units : List UInt16) : Bytes := units.flatMap leUnit ++ leUnit 0

/-- An active load option: `list` starts with the chain of `dp`, whatever follows it. -/
inductive LoadOption : Bytes → DevicePath → Prop where
  | mk {attributes : UInt32} {units : List UInt16} {list trailing optional : Bytes}
      {dp : DevicePath} :
      attributes &&& loadOptionActive ≠ 0 →
      (∀ u ∈ units, u ≠ 0) →
      IsChain dp →
      list = asBytes dp ++ trailing →
      list.length < 2 ^ 16 →
      LoadOption (leBytes attributes ++ leUnit (UInt16.ofNat list.length) ++
        encodeDescription units ++ list ++ optional) dp

def buildLoadOption (attributes : UInt32) (units : List UInt16) (dp : DevicePath) : Bytes :=
  leBytes attributes ++ leUnit (UInt16.ofNat (asBytes dp).length) ++ encodeDescription units ++
    asBytes dp

/-! `none` stands for an access outside a slice, or for a loop that did not end. `behind` is what
memory holds after the file path list. -/

def skipDescriptionFrom (rest : Bytes) : ℕ → ℕ → Option (Option ℕ)
  | 0, _ => none
  | fuel + 1, offset =>
    if offset + 1 ≥ rest.length then
      some none
    else
      match rest[offset]?, rest[offset + 1]? with
      | some a, some b =>
        if u16FromLeBytes a b = 0 then some (some (offset + 2))
        else skipDescriptionFrom rest fuel (offset + 2)
      | _, _ => none

def validateNodesFrom (buffer : Bytes) : ℕ → ℕ → Option Bool
  | 0, _ => none
  | fuel + 1, pos =>
    if pos + nodeHdrBytes > buffer.length then
      some false
    else
      match buffer[pos]?, buffer[pos + 1]?, buffer[pos + 2]?, buffer[pos + 3]? with
      | some nodeType, some nodeSubtype, some low, some high =>
        let nodeLength := (u16FromLeBytes low high).toNat
        if nodeLength < nodeHdrBytes then some false
        else if pos + nodeLength > buffer.length then some false
        else if nodeType = typeEnd ∧ nodeSubtype = subtypeEntire then some true
        else validateNodesFrom buffer fuel (pos + nodeLength)
      | _, _, _, _ => none

def slice (b : Bytes) (start stop : ℕ) : Option Bytes :=
  if start ≤ stop ∧ stop ≤ b.length then some (window b start (stop - start)) else none

def filePathList (rest : Bytes) (offset length : ℕ) : Option (Option Bytes) :=
  if offset + length > rest.length then
    some none
  else
    match slice rest offset (offset + length) with
    | none => none
    | some bytes => (validateNodesFrom bytes (bytes.length + 1) 0).map fun valid =>
      if valid then some bytes else none

def parseLoadOptionChecked [PatinaDevicePath] (behind data : Bytes) : Option (Option DevicePath) :=
  if data.length < 6 then
    some none
  else
    match slice data 0 6, slice data 6 data.length with
    | some header, some rest =>
      if leWord header &&& loadOptionActive = 0 then
        some none
      else
        match skipDescriptionFrom rest (rest.length + 1) 0 with
        | none => none
        | some none => some none
        | some (some offset) =>
          (filePathList rest offset (u16FromLeBytes (header.getD 4 0) (header.getD 5 0)).toNat).map
            fun list => list.bind fun bytes => tryFromPtr (memoryOf (bytes ++ behind))
    | _, _ => none

theorem skipDescription_encode {units : List UInt16} (hunits : ∀ u ∈ units, u ≠ 0) (rest : Bytes) :
    skipDescription (encodeDescription units ++ rest) = some rest := by
  induction units with
  | nil => rfl
  | cons u units ih =>
    have hu : u ≠ 0 := hunits u List.mem_cons_self
    have hunits' : ∀ v ∈ units, v ≠ 0 := fun v hv => hunits v (List.mem_cons_of_mem _ hv)
    have hsplit : encodeDescription (u :: units) ++ rest =
        UInt8.ofNat u.toNat :: UInt8.ofNat (u.toNat / 2 ^ 8) ::
          (encodeDescription units ++ rest) := by
      simp [encodeDescription, leUnit]
    rw [hsplit, skipDescription, u16FromLeBytes_leUnit, if_neg hu]
    exact ih hunits'

theorem description_of_skip {b rest : Bytes} (h : skipDescription b = some rest) :
    ∃ units : List UInt16, (∀ u ∈ units, u ≠ 0) ∧ b = encodeDescription units ++ rest := by
  fun_induction skipDescription b with
  | case1 a b tail hzero =>
    cases h
    refine ⟨[], nofun, ?_⟩
    have hhead : a :: b :: rest = [a, b] ++ rest := rfl
    rw [hhead, ← leUnit_u16FromLeBytes, hzero]
    rfl
  | case2 a b tail hunit ih =>
    obtain ⟨units, hunits, rfl⟩ := ih h
    refine ⟨u16FromLeBytes a b :: units, ?_, ?_⟩
    · intro u hu
      rcases List.mem_cons.mp hu with rfl | hu
      · exact hunit
      · exact hunits u hu
    · have hhead : a :: b :: (encodeDescription units ++ rest) =
          [a, b] ++ (encodeDescription units ++ rest) := rfl
      rw [hhead, ← leUnit_u16FromLeBytes]
      simp [encodeDescription]
  | case3 => cases h

/-- The scan by offsets: it stays inside and finds the end of the description. -/
theorem skipDescriptionFrom_eq (rest : Bytes) : ∀ (fuel offset : ℕ),
    rest.length < offset + fuel → offset ≤ rest.length →
      ∃ found, skipDescriptionFrom rest fuel offset = some found ∧
        skipDescription (rest.drop offset) = found.map rest.drop ∧
        ∀ stop, found = some stop → stop ≤ rest.length := by
  intro fuel
  induction fuel with
  | zero =>
    intro offset hfuel hle
    omega
  | succ fuel ih =>
    intro offset hfuel hle
    rw [skipDescriptionFrom]
    by_cases hend : offset + 1 ≥ rest.length
    · rw [if_pos hend]
      refine ⟨none, rfl, ?_, nofun⟩
      have hshort : (rest.drop offset).length ≤ 1 := by
        rw [List.length_drop]
        omega
      match rest.drop offset, hshort with
      | [], _ => rfl
      | [_], _ => rfl
    · rw [if_neg hend]
      have h₀ : offset < rest.length := by omega
      have h₁ : offset + 1 < rest.length := by omega
      have hdrop : rest.drop offset = rest[offset] :: rest[offset + 1] :: rest.drop (offset + 2) := by
        rw [List.drop_eq_getElem_cons h₀, List.drop_eq_getElem_cons h₁]
      rw [List.getElem?_eq_getElem h₀, List.getElem?_eq_getElem h₁, hdrop, skipDescription]
      dsimp only
      by_cases hzero : u16FromLeBytes rest[offset] rest[offset + 1] = 0
      · rw [if_pos hzero, if_pos hzero]
        refine ⟨some (offset + 2), rfl, rfl, ?_⟩
        intro stop hstop
        cases hstop
        omega
      · rw [if_neg hzero, if_neg hzero]
        exact ih (offset + 2) (by omega) (by omega)

theorem headLength_drop (buffer : Bytes) (pos : ℕ) :
    headLength (buffer.drop pos) =
      (u16FromLeBytes (buffer.getD (pos + 2) 0) (buffer.getD (pos + 3) 0)).toNat := by
  simp [headLength, toNat_u16FromLeBytes, List.getD_eq_getElem?_getD]

theorem isEndEntire_headNode_drop (buffer : Bytes) (pos : ℕ) :
    IsEndEntire (headNode (buffer.drop pos)) ↔
      buffer.getD pos 0 = typeEnd ∧ buffer.getD (pos + 1) 0 = subtypeEntire := by
  simp [IsEndEntire, headNode, List.getD_eq_getElem?_getD]

/-- A chain starts at `pos`. -/
def ChainAt (buffer : Bytes) (pos : ℕ) : Prop :=
  ∃ p rest, IsChain p ∧ buffer.drop pos = asBytes p ++ rest

theorem not_chainAt_end {buffer : Bytes} {pos : ℕ} (h : buffer.length < pos + nodeHdrBytes) :
    ¬ChainAt buffer pos := by
  rintro ⟨p, rest, hp, hdrop⟩
  obtain ⟨hhdr, hin, -⟩ := chain_head hp hdrop
  rw [List.length_drop] at hin
  unfold nodeHdrBytes at h hhdr
  omega

theorem chainAt_step {buffer : Bytes} {pos : ℕ}
    (hhdr : nodeHdrBytes ≤ headLength (buffer.drop pos))
    (hin : headLength (buffer.drop pos) ≤ (buffer.drop pos).length)
    (hend : ¬IsEndEntire (headNode (buffer.drop pos))) :
    ChainAt buffer pos ↔ ChainAt buffer (pos + headLength (buffer.drop pos)) := by
  constructor
  · rintro ⟨p, rest, hp, hdrop⟩
    obtain ⟨-, -, hlast | hmore⟩ := chain_head hp hdrop
    · exact absurd hlast.1 hend
    · obtain ⟨-, q, -, hq, hrest⟩ := hmore
      exact ⟨q, rest, hq, by rwa [List.drop_drop] at hrest⟩
  · rintro ⟨q, rest, hq, hrest⟩
    rw [← List.drop_drop] at hrest
    obtain ⟨hchain, hdrop⟩ := chain_of_drop hhdr hin hend hq hrest
    exact ⟨_, rest, hchain, hdrop⟩

theorem validateFrom_iff (buffer : Bytes) : ∀ (fuel pos : ℕ), buffer.length < pos + fuel →
    (validateFrom buffer fuel pos = true ↔ ChainAt buffer pos) := by
  intro fuel
  induction fuel with
  | zero =>
    intro pos hfuel
    have hno : ¬ChainAt buffer pos := not_chainAt_end (by omega)
    simp [validateFrom, hno]
  | succ fuel ih =>
    intro pos hfuel
    have hlength : (buffer.drop pos).length = buffer.length - pos := List.length_drop
    rw [validateFrom, ← headLength_drop]
    by_cases hout : pos + nodeHdrBytes > buffer.length
    · rw [if_pos hout]
      simpa using not_chainAt_end hout
    rw [if_neg hout]
    by_cases hshort : headLength (buffer.drop pos) < nodeHdrBytes
    · rw [if_pos hshort]
      suffices ¬ChainAt buffer pos by simpa using this
      rintro ⟨p, rest, hp, hdrop⟩
      have hhdr := (chain_head hp hdrop).1
      omega
    rw [if_neg hshort]
    by_cases hlong : pos + headLength (buffer.drop pos) > buffer.length
    · rw [if_pos hlong]
      suffices ¬ChainAt buffer pos by simpa using this
      rintro ⟨p, rest, hp, hdrop⟩
      have hin := (chain_head hp hdrop).2.1
      omega
    rw [if_neg hlong]
    by_cases hend : IsEndEntire (headNode (buffer.drop pos))
    · rw [if_pos ((isEndEntire_headNode_drop buffer pos).mp hend)]
      obtain ⟨rest, hchain, hdrop⟩ := chain_of_head (by omega) (by omega) hend
      exact iff_of_true rfl ⟨_, rest, hchain, hdrop⟩
    · have hhdr : nodeHdrBytes = 4 := rfl
      rw [if_neg (mt (isEndEntire_headNode_drop buffer pos).mpr hend), ih _ (by omega)]
      exact (chainAt_step (by omega) (by omega) hend).symm

theorem validateDevicePathNodes_iff (buffer : Bytes) :
    validateDevicePathNodes buffer = true ↔
      ∃ p rest, IsChain p ∧ buffer = asBytes p ++ rest :=
  validateFrom_iff buffer _ 0 (by omega)

theorem validateNodesFrom_eq (buffer : Bytes) : ∀ (fuel pos : ℕ), buffer.length < pos + fuel →
    pos ≤ buffer.length →
      validateNodesFrom buffer fuel pos = some (validateFrom buffer fuel pos) := by
  intro fuel
  induction fuel with
  | zero =>
    intro pos hfuel hle
    omega
  | succ fuel ih =>
    intro pos hfuel hle
    rw [validateNodesFrom, validateFrom]
    dsimp only
    by_cases hout : pos + nodeHdrBytes > buffer.length
    · rw [if_pos hout, if_pos hout]
    have hhdr : nodeHdrBytes = 4 := rfl
    have access : ∀ i, i < 4 → buffer[pos + i]? = some (buffer.getD (pos + i) 0) := by
      intro i hi
      rw [List.getD_eq_getElem?_getD, List.getElem?_eq_getElem (by omega)]
      rfl
    rw [if_neg hout, if_neg hout, access 2 (by omega), access 3 (by omega), access 1 (by omega),
      show buffer[pos]? = some (buffer.getD pos 0) from access 0 (by omega)]
    dsimp only
    split_ifs with hshort hlong hend
    · rfl
    · rfl
    · rfl
    · exact ih _ (by omega) (by omega)

theorem slice_of_le {b : Bytes} {start stop : ℕ} (h : start ≤ stop) (hstop : stop ≤ b.length) :
    slice b start stop = some (window b start (stop - start)) :=
  if_pos ⟨h, hstop⟩

theorem filePathList_eq (rest : Bytes) (offset length : ℕ) :
    filePathList rest offset length =
      some (if length > (rest.drop offset).length ∨ rest.length < offset then none
        else if validateDevicePathNodes ((rest.drop offset).take length) = false then none
        else some ((rest.drop offset).take length)) := by
  rw [filePathList, List.length_drop]
  by_cases hlong : offset + length > rest.length
  · rw [if_pos hlong, if_pos (by omega)]
  · rw [if_neg hlong, if_neg (by omega), slice_of_le (by omega) (by omega),
      Nat.add_sub_cancel_left]
    dsimp only
    rw [validateNodesFrom_eq _ _ _ (by omega) (by omega)]
    rw [Option.map_some]
    change some (if validateDevicePathNodes (window rest offset length) = true then _ else _) =
      some (if validateDevicePathNodes (window rest offset length) = false then _ else _)
    cases validateDevicePathNodes (window rest offset length) <;> rfl

/-- A byte string of six bytes and more is a header and a rest. -/
theorem split_header {data : Bytes} (hlen : 6 ≤ data.length) :
    data = leBytes (leWord data) ++ leUnit (u16FromLeBytes (data.getD 4 0) (data.getD 5 0)) ++
      data.drop 6 := by
  rcases data with _ | ⟨b₀, _ | ⟨b₁, _ | ⟨b₂, _ | ⟨b₃, _ | ⟨b₄, _ | ⟨b₅, rest⟩⟩⟩⟩⟩⟩
  all_goals try (simp at hlen; done)
  rw [leBytes_leWord, leUnit_u16FromLeBytes]
  rfl

theorem leWord_leBytes_append (w : UInt32) (rest : Bytes) : leWord (leBytes w ++ rest) = w := by
  have hfront : leWord (leBytes w ++ rest) = leWord (leBytes w) := rfl
  rw [hfront, leWord_leBytes]

section Parser

variable [PatinaDevicePath]

/-- The parser on a header, a description and what follows. -/
theorem parseLoadOption_header (attributes : UInt32) (length : UInt16) {units : List UInt16}
    (hunits : ∀ u ∈ units, u ≠ 0) (rest : Bytes) :
    parseLoadOption (leBytes attributes ++ leUnit length ++ encodeDescription units ++ rest) =
      if attributes &&& loadOptionActive = 0 then none
      else if length.toNat > rest.length then none
      else if validateDevicePathNodes (rest.take length.toNat) = false then none
      else tryFromPtr (memoryOf (rest.take length.toNat)) := by
  have hdata : leBytes attributes ++ leUnit length ++ encodeDescription units ++ rest =
      leBytes attributes ++ (leUnit length ++ (encodeDescription units ++ rest)) := by
    simp only [List.append_assoc]
  have hfield : u16FromLeBytes
      ((leBytes attributes ++ (leUnit length ++ (encodeDescription units ++ rest))).getD 4 0)
      ((leBytes attributes ++ (leUnit length ++ (encodeDescription units ++ rest))).getD 5 0) =
        length := u16FromLeBytes_leUnit length
  have hdrop : (leBytes attributes ++ (leUnit length ++ (encodeDescription units ++ rest))).drop 6 =
      encodeDescription units ++ rest := rfl
  have hlong : ¬(leBytes attributes ++ (leUnit length ++ (encodeDescription units ++ rest))).length
      < 6 := by
    rw [List.length_append, List.length_append, length_leBytes, length_leUnit]
    omega
  rw [hdata, parseLoadOption, if_neg hlong, leWord_leBytes_append, hfield, hdrop,
    skipDescription_encode hunits]

/-- Everything the parser takes is a header, a description and a rest. -/
theorem parseLoadOption_some {data : Bytes} {dp : DevicePath} (h : parseLoadOption data = some dp) :
    ∃ (attributes : UInt32) (length : UInt16) (units : List UInt16) (rest : Bytes),
      (∀ u ∈ units, u ≠ 0) ∧
        data = leBytes attributes ++ leUnit length ++ encodeDescription units ++ rest := by
  unfold parseLoadOption at h
  dsimp only at h
  split at h
  · cases h
  next hlen =>
    split at h
    · cases h
    · cases hskip : skipDescription (data.drop 6) with
      | none =>
        rw [hskip] at h
        cases h
      | some rest =>
        obtain ⟨units, hunits, hrest⟩ := description_of_skip hskip
        refine ⟨leWord data, u16FromLeBytes (data.getD 4 0) (data.getD 5 0), units, rest, hunits, ?_⟩
        rw [List.append_assoc _ _ rest, ← hrest]
        exact split_header (by omega)

/-- The library's decoder on a list that starts with a chain. -/
theorem tryFromPtr_chain (hreads : ReadsChains ‹PatinaDevicePath›) {dp : DevicePath}
    (hdp : IsChain dp) {trailing : Bytes} (hshort : (asBytes dp ++ trailing).length < 2 ^ 16)
    (behind : Bytes) : tryFromPtr (memoryOf (asBytes dp ++ trailing ++ behind)) = some dp := by
  apply hreads _ dp hdp
  · rw [List.length_append] at hshort
    omega
  · rw [List.append_assoc]
    exact holds_memoryOf _ _

theorem parseLoadOption_iff (hreads : ReadsChains ‹PatinaDevicePath›) (data : Bytes)
    (dp : DevicePath) : parseLoadOption data = some dp ↔ LoadOption data dp := by
  constructor
  · intro h
    obtain ⟨attributes, length, units, rest, hunits, rfl⟩ := parseLoadOption_some h
    rw [parseLoadOption_header attributes length hunits] at h
    split at h
    · cases h
    next hactive =>
    split at h
    · cases h
    next hfits =>
    split at h
    · cases h
    next hvalid =>
    obtain ⟨p, trailing, hp, hlist⟩ :=
      (validateDevicePathNodes_iff _).mp (Bool.eq_true_of_not_eq_false hvalid)
    have hlen : (rest.take length.toNat).length = length.toNat := by
      rw [List.length_take]
      omega
    have hbound := length.toNat_lt
    have hshort : (asBytes p ++ trailing).length < 2 ^ 16 := by
      rw [← hlist, hlen]
      exact hbound
    have hread := tryFromPtr_chain hreads hp hshort []
    rw [List.append_nil, ← hlist, h] at hread
    cases hread
    have hoption : LoadOption (leBytes attributes ++
        leUnit (UInt16.ofNat (rest.take length.toNat).length) ++ encodeDescription units ++
          rest.take length.toNat ++ rest.drop length.toNat) dp :=
      .mk hactive hunits hp hlist (by rw [hlen]; exact hbound)
    rw [hlen, UInt16.ofNat_toNat, List.append_assoc _ _ (rest.drop _), List.take_append_drop]
      at hoption
    exact hoption
  · intro h
    cases h with
    | @mk attributes units list trailing optional _ hactive hunits hp hlist hbound =>
      have hlen : (UInt16.ofNat list.length).toNat = list.length := by
        rw [UInt16.toNat_ofNat']
        omega
      have hvalid : validateDevicePathNodes list = true :=
        (validateDevicePathNodes_iff list).mpr ⟨dp, trailing, hp, hlist⟩
      rw [List.append_assoc _ list optional, parseLoadOption_header _ _ hunits, if_neg hactive, hlen,
        if_neg (by simp), List.take_left' rfl, if_neg (by simp [hvalid])]
      have hread := tryFromPtr_chain hreads hp (hlist ▸ hbound) []
      rwa [List.append_nil, ← hlist] at hread

theorem parseLoadOptionChecked_eq (hreads : ReadsChains ‹PatinaDevicePath›) (behind data : Bytes) :
    parseLoadOptionChecked behind data = some (parseLoadOption data) := by
  rw [parseLoadOptionChecked, parseLoadOption]
  by_cases hlen : data.length < 6
  · rw [if_pos hlen, if_pos hlen]
  rw [if_neg hlen, if_neg hlen, slice_of_le (by omega) (by omega), slice_of_le (by omega) le_rfl]
  have hheader : leWord (window data 0 6) = leWord data := by
    rcases data with _ | ⟨b₀, _ | ⟨b₁, _ | ⟨b₂, _ | ⟨b₃, rest⟩⟩⟩⟩
    all_goals rfl
  have hfield : ∀ i, i < 6 → (window data 0 6).getD i 0 = data.getD i 0 := by
    intro i hi
    rw [List.getD_eq_getElem?_getD, getElem?_window, if_pos hi, Nat.zero_add,
      List.getD_eq_getElem?_getD]
  have hrest : window data 6 (data.length - 6) = data.drop 6 := by
    rw [window, ← List.length_drop, List.take_length]
  dsimp only
  rw [hheader, hfield 4 (by omega), hfield 5 (by omega), hrest]
  by_cases hactive : leWord data &&& loadOptionActive = 0
  · rw [if_pos hactive, if_pos hactive]
  rw [if_neg hactive, if_neg hactive]
  obtain ⟨found, hfound, hskip, hstop⟩ :=
    skipDescriptionFrom_eq (data.drop 6) ((data.drop 6).length + 1) 0 (by omega) (by omega)
  rw [List.drop_zero] at hskip
  rw [hfound, hskip]
  cases found with
  | none => rfl
  | some offset =>
    have hin := hstop offset rfl
    rw [Option.map_some]
    dsimp only
    rw [filePathList_eq]
    by_cases hlong : (u16FromLeBytes (data.getD 4 0) (data.getD 5 0)).toNat >
        ((data.drop 6).drop offset).length
    · rw [if_pos (.inl hlong), if_pos hlong]
      rfl
    rw [if_neg (by omega), if_neg hlong]
    cases hvalid : validateDevicePathNodes
        (((data.drop 6).drop offset).take (u16FromLeBytes (data.getD 4 0) (data.getD 5 0)).toNat) with
    | false => rfl
    | true =>
      obtain ⟨p, trailing, hp, hlist⟩ := (validateDevicePathNodes_iff _).mp hvalid
      have hshort : (asBytes p ++ trailing).length < 2 ^ 16 := by
        have hbound := (u16FromLeBytes (data.getD 4 0) (data.getD 5 0)).toNat_lt
        rw [← hlist, List.length_take]
        omega
      have hread := tryFromPtr_chain hreads hp hshort behind
      have hread' := tryFromPtr_chain hreads hp hshort []
      rw [List.append_nil] at hread'
      rw [hlist, if_neg (by decide), if_neg (by decide), Option.map_some, Option.bind_some, hread, hread']

theorem parseLoadOption_build (hreads : ReadsChains ‹PatinaDevicePath›) {attributes : UInt32}
    {units : List UInt16} {dp : DevicePath} (hactive : attributes &&& loadOptionActive ≠ 0)
    (hunits : ∀ u ∈ units, u ≠ 0) (hdp : IsChain dp) (hshort : (asBytes dp).length < 2 ^ 16)
    (optional : Bytes) :
    parseLoadOption (buildLoadOption attributes units dp ++ optional) = some dp := by
  apply (parseLoadOption_iff hreads _ dp).mpr
  exact .mk hactive hunits hdp (List.append_nil _).symm hshort

/-- The parser takes exactly the active load options, each access stays inside the option, its
loops end, and it undoes the encoder. -/
theorem parse_load_option_exact (hreads : ReadsChains ‹PatinaDevicePath›) :
    (∀ data dp, parseLoadOption data = some dp ↔ LoadOption data dp) ∧
      (∀ behind data, parseLoadOptionChecked behind data = some (parseLoadOption data)) ∧
      ∀ (attributes : UInt32) (units : List UInt16) (dp : DevicePath) (optional : Bytes),
        attributes &&& loadOptionActive ≠ 0 → (∀ u ∈ units, u ≠ 0) → IsChain dp →
          (asBytes dp).length < 2 ^ 16 →
            parseLoadOption (buildLoadOption attributes units dp ++ optional) = some dp := by
  refine ⟨parseLoadOption_iff hreads, parseLoadOptionChecked_eq hreads, ?_⟩
  intro attributes units dp optional hactive hunits hdp hshort
  exact parseLoadOption_build hreads hactive hunits hdp hshort optional

end Parser

theorem parse_load_option_exact_spec :
    @ReadsChains specDevicePath ∧
      (∀ data dp, @parseLoadOption specDevicePath data = some dp ↔ LoadOption data dp) ∧
      (∀ behind data, @parseLoadOptionChecked specDevicePath behind data =
        some (@parseLoadOption specDevicePath data)) ∧
      ∀ (attributes : UInt32) (units : List UInt16) (dp : DevicePath) (optional : Bytes),
        attributes &&& loadOptionActive ≠ 0 → (∀ u ∈ units, u ≠ 0) → IsChain dp →
          (asBytes dp).length < 2 ^ 16 →
            @parseLoadOption specDevicePath (buildLoadOption attributes units dp ++ optional) =
              some dp :=
  ⟨specDevicePath_readsChains,
    @parse_load_option_exact specDevicePath specDevicePath_readsChains⟩

end PatinaLoadOption
