import Mathlib.Data.List.Nodup

/-! # Trees of named entries

Directories list named entries in some order. A directory may refuse to be listed, and a listing
may break off. -/
namespace NamedTrees

variable {ν κ ε : Type}

mutual

inductive Node (ν κ ε : Type) where
  | leaf (contents : κ)
  | dir (entries : Listing ν κ ε)
  | unlisted (e : ε)

inductive Listing (ν κ ε : Type) where
  | done
  | failed (e : ε)
  | entry (name : ν) (node : Node ν κ ε) (rest : Listing ν κ ε)

end

def Listing.names : Listing ν κ ε → List ν
  | .entry name _ rest => name :: rest.names
  | _ => []

def Listing.get? [DecidableEq ν] (name : ν) : Listing ν κ ε → Option (Node ν κ ε)
  | .entry n node rest => if n = name then some node else rest.get? name
  | _ => none

def Node.find [DecidableEq ν] : Node ν κ ε → List ν → Option (Node ν κ ε)
  | node, [] => some node
  | .dir entries, name :: rest => (entries.get? name).bind fun node => node.find rest
  | _, _ :: _ => none

mutual

def Node.leaves : Node ν κ ε → List (List ν × κ)
  | .leaf contents => [([], contents)]
  | .dir entries => entries.leaves
  | .unlisted _ => []

def Listing.leaves : Listing ν κ ε → List (List ν × κ)
  | .entry name node rest => node.leaves.map (fun x => (name :: x.1, x.2)) ++ rest.leaves
  | _ => []

end

mutual

def Node.Listed : Node ν κ ε → Prop
  | .leaf _ => True
  | .dir entries => entries.Listed
  | .unlisted _ => False

def Listing.Listed : Listing ν κ ε → Prop
  | .done => True
  | .failed _ => False
  | .entry _ node rest => node.Listed ∧ rest.Listed

end

mutual

def Node.Distinct : Node ν κ ε → Prop
  | .dir entries => entries.Distinct
  | _ => True

def Listing.Distinct : Listing ν κ ε → Prop
  | .entry name node rest => name ∉ rest.names ∧ node.Distinct ∧ rest.Distinct
  | _ => True

end

theorem head_mem_names : ∀ {entries : Listing ν κ ε} {path : List ν} {contents : κ},
    (path, contents) ∈ entries.leaves → ∃ name rest, path = name :: rest ∧ name ∈ entries.names
  | .done, _, _, h => nomatch h
  | .failed _, _, _, h => nomatch h
  | .entry n node rest, path, contents, h => by
    rw [Listing.leaves, List.mem_append, List.mem_map] at h
    rw [Listing.names]
    rcases h with ⟨x, -, hx⟩ | h
    · cases hx
      exact ⟨n, x.1, rfl, List.mem_cons_self⟩
    · obtain ⟨name, tail, hpath, hname⟩ := head_mem_names h
      exact ⟨name, tail, hpath, List.mem_cons_of_mem n hname⟩

mutual

theorem nodup_leaves : ∀ {node : Node ν κ ε}, node.Distinct → (node.leaves.map Prod.fst).Nodup
  | .leaf c, _ => by simp [Node.leaves]
  | .dir entries, h => by
    rw [Node.leaves]
    exact nodup_listing_leaves h
  | .unlisted e, _ => by simp [Node.leaves]

theorem nodup_listing_leaves : ∀ {entries : Listing ν κ ε}, entries.Distinct →
    (entries.leaves.map Prod.fst).Nodup
  | .done, _ => by simp [Listing.leaves]
  | .failed e, _ => by simp [Listing.leaves]
  | .entry n node rest, h => by
    rw [Listing.Distinct] at h
    obtain ⟨hname, hnode, hrest⟩ := h
    rw [Listing.leaves, List.map_append, List.map_map, List.nodup_append]
    refine ⟨?_, nodup_listing_leaves hrest, ?_⟩
    · have hcons := (nodup_leaves hnode).map (List.cons_injective (a := n))
      rwa [List.map_map] at hcons
    · intro path hpath path' hpath'
      obtain ⟨x, -, rfl⟩ := List.mem_map.mp hpath
      obtain ⟨y, hy, rfl⟩ := List.mem_map.mp hpath'
      obtain ⟨name', tail, htail, hmem⟩ := @head_mem_names _ _ _ _ y.1 y.2 hy
      rw [htail]
      rintro ⟨⟩
      exact hname hmem

end

section Paths

variable [DecidableEq ν]

@[simp] theorem find_nil (node : Node ν κ ε) : node.find [] = some node := by
  rw [Node.find]

@[simp] theorem find_dir_cons (entries : Listing ν κ ε) (name : ν) (rest : List ν) :
    (Node.dir entries).find (name :: rest) =
      (entries.get? name).bind fun node => node.find rest := by
  rw [Node.find]

theorem find_append (path rest : List ν) : ∀ node : Node ν κ ε,
    node.find (path ++ rest) = (node.find path).bind fun node => node.find rest := by
  induction path with
  | nil => exact fun node => rfl
  | cons name path ih =>
    intro node
    cases node with
    | dir entries =>
      rw [List.cons_append, find_dir_cons, find_dir_cons]
      cases entries.get? name with
      | none => rfl
      | some child => exact ih child
    | leaf => rfl
    | unlisted => rfl

theorem Distinct.get? {name : ν} {node : Node ν κ ε} : ∀ {entries : Listing ν κ ε},
    entries.Distinct → entries.get? name = some node → node.Distinct
  | .done, _, h => nomatch h
  | .failed _, _, h => nomatch h
  | .entry n child rest, hdistinct, h => by
    rw [Listing.Distinct] at hdistinct
    rw [Listing.get?] at h
    split at h
    · rw [← Option.some.inj h]
      exact hdistinct.2.1
    · exact Distinct.get? hdistinct.2.2 h

theorem Distinct.find (path : List ν) : ∀ {node found : Node ν κ ε},
    node.Distinct → node.find path = some found → found.Distinct := by
  induction path with
  | nil =>
    rintro node found hdistinct ⟨⟩
    exact hdistinct
  | cons name path ih =>
    intro node found hdistinct hfind
    cases node with
    | dir entries =>
      rw [find_dir_cons] at hfind
      obtain ⟨child, hchild, hrest⟩ := Option.bind_eq_some_iff.mp hfind
      exact ih (Distinct.get? hdistinct hchild) hrest
    | leaf => cases hfind
    | unlisted => cases hfind

mutual

/-- The leaves are what paths lead to. -/
theorem mem_leaves : ∀ {node : Node ν κ ε}, node.Distinct → ∀ {path : List ν} {contents : κ},
    (path, contents) ∈ node.leaves ↔ node.find path = some (.leaf contents)
  | .leaf c, _, path, contents => by
    rw [Node.leaves, List.mem_singleton]
    cases path with
    | nil => simp [eq_comm]
    | cons name path => simp [Node.find]
  | .dir entries, h, path, contents => by
    rw [Node.leaves]
    cases path with
    | nil =>
      refine iff_of_false (fun hmem => ?_) (by simp)
      obtain ⟨name, rest, hpath, -⟩ := head_mem_names hmem
      cases hpath
    | cons name rest => rw [find_dir_cons, mem_listing_leaves h]
  | .unlisted e, _, path, contents => by
    rw [Node.leaves]
    cases path with
    | nil => simp
    | cons name path => simp [Node.find]

theorem mem_listing_leaves : ∀ {entries : Listing ν κ ε}, entries.Distinct →
    ∀ {name : ν} {path : List ν} {contents : κ},
      (name :: path, contents) ∈ entries.leaves ↔
        ((entries.get? name).bind fun node => node.find path) = some (.leaf contents)
  | .done, _, name, path, contents => by simp [Listing.leaves, Listing.get?]
  | .failed e, _, name, path, contents => by simp [Listing.leaves, Listing.get?]
  | .entry n node rest, h, name, path, contents => by
    rw [Listing.Distinct] at h
    obtain ⟨hname, hnode, hrest⟩ := h
    rw [Listing.leaves, List.mem_append, List.mem_map, Listing.get?]
    by_cases hn : n = name
    · subst hn
      rw [if_pos rfl, Option.bind_some, ← mem_leaves hnode]
      constructor
      · rintro (⟨x, hx, heq⟩ | hmem)
        · cases heq
          exact hx
        · obtain ⟨name', tail, hpath, hmem'⟩ := head_mem_names hmem
          cases hpath
          exact absurd hmem' hname
      · exact fun hmem => .inl ⟨_, hmem, rfl⟩
    · rw [if_neg hn, ← mem_listing_leaves hrest]
      constructor
      · rintro (⟨x, -, heq⟩ | hmem)
        · cases heq
          exact absurd rfl hn
        · exact hmem
      · exact .inr

end

end Paths

end NamedTrees
