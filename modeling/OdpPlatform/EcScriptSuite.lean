import Mathlib.Data.Char
import Mathlib.Data.List.Lex
import Mathlib.Data.List.Sort
import OdpPlatform.EcScriptTrace
import OdpPlatform.NamedTrees

/-! # commands/script.rs: the scripts of a directory

`script run` over a tree of files that stays as it is during the run. The lines around the rows
(banners, summaries, totals) are left out. -/
namespace EcScript

open CharText EcScriptParser InteractionProgram NamedTrees

abbrev Path := List Text

/-- A regular file, or something that is neither that nor a directory. -/
structure File where
  isFile : Bool
  readToString : Except String Text

structure FileTree where
  root : Node Text File String
  distinct : root.Distinct

def display (path : Path) : String := String.ofList (path.flatMap fun name => '/' :: name)

def noSuchFile : String := "No such file or directory (os error 2)"
def isADirectory : String := "Is a directory (os error 21)"

/-- `Path::extension`: behind the last dot, unless that dot comes first. -/
def extension (name : Text) : Option Text :=
  match rsplitOnce '.' name with
  | some (stem, ext) => if stem = [] ∨ name = ['.', '.'] then none else some ext
  | none => none

def isTestFile (path : Path) : Bool :=
  (path.getLast?.bind extension) == some ['t', 'e', 's', 't']

mutual

def visit (path : Path) : Node Text File String → List Path → Except String (List Path)
  | .dir entries, out => walk path entries out
  | .unlisted e, _ => .error ("read_dir " ++ display path ++ ": " ++ e)
  | .leaf file, out => .ok (if file.isFile ∧ isTestFile path then out ++ [path] else out)

def walk (dir : Path) : Listing Text File String → List Path → Except String (List Path)
  | .done, out => .ok out
  | .failed e, _ => .error e
  | .entry name node rest, out =>
    match visit (dir ++ [name]) node out with
    | .error e => .error e
    | .ok out => walk dir rest out

end

/-- `out.sort()`: by components, each by code points. -/
def sortPaths (out : List Path) : List Path := out.mergeSort fun a b => decide (a ≤ b)

def collectTestFiles (dir : Path) (node : Node Text File String) : Except String (List Path) :=
  (visit dir node []).map sortPaths

def readToString (fs : FileTree) (path : Path) : Except String Text :=
  match fs.root.find path with
  | some (.leaf file) => file.readToString
  | some _ => .error isADirectory
  | none => .error noSuchFile

def testFiles (fs : FileTree) (path : Path) : Except String (List Path) :=
  match fs.root.find path with
  | none => .error ("stat " ++ display path ++ ": " ++ noSuchFile)
  | some (.leaf _) => .ok [path]
  | some node =>
    match collectTestFiles path node with
    | .error e => .error e
    | .ok [] => .error ("no `.test` files under " ++ display path)
    | .ok files => .ok files

structure Totals where
  totalPassed : UInt32 := 0
  totalFailed : UInt32 := 0
  failedFiles : List Path := []
  /-- What the files printed. -/
  printed : List (Path × List Row) := []

def Totals.add (totals : Totals) (file : Path) (summary : Summary) (rows : List Row) : Totals where
  totalPassed := totals.totalPassed + summary.passed
  totalFailed := totals.totalFailed + summary.failed
  failedFiles :=
    if summary.failed = 0 then totals.failedFiles else totals.failedFiles ++ [file]
  printed := totals.printed ++ [(file, rows)]

def ParseError.display (e : ParseError) : String := "line " ++ toString e.line ++ ": " ++ e.message

def conclude : Except String Unit × Totals → Except String Unit × Totals
  | (.error e, totals) => (.error e, totals)
  | (.ok (), totals) =>
    if totals.totalFailed > 0 then
      (.error (toString totals.totalFailed ++ " test(s) failed"), totals)
    else
      (.ok (), totals)

section Run

variable {α : Type} [HostDecimal α] [ScriptHost]

def runFiles (fs : FileTree) : List Path → Totals → Script α (Except String Unit × Totals)
  | [], totals => pure (.ok (), totals)
  | file :: rest, totals =>
    match readToString fs file with
    | .error e => pure (.error ("failed to read " ++ display file ++ ": " ++ e), totals)
    | .ok script => do
      match ← runScript script with
      | .error e => pure (.error (display file ++ ": " ++ ParseError.display e), totals)
      | .ok (summary, rows) => runFiles fs rest (totals.add file summary rows)

def runPath (fs : FileTree) (path : Path) : Script α (Except String Unit × Totals) :=
  match testFiles fs path with
  | .error e => pure (.error e, {})
  | .ok files => do
    let result ← runFiles fs files {}
    pure (conclude result)

end Run

def testsBelow (path : Path) (leaves : List (List Text × File)) : List Path :=
  (leaves.filter fun x => x.2.isFile ∧ isTestFile (path ++ x.1)).map fun x => path ++ x.1

theorem testsBelow_cons (path : Path) (name : Text) (leaves : List (List Text × File)) :
    testsBelow path (leaves.map fun x => (name :: x.1, x.2)) =
      testsBelow (path ++ [name]) leaves := by
  simp only [testsBelow, List.filter_map, List.map_map, Function.comp_def, List.append_assoc,
    List.singleton_append]

theorem testsBelow_leaf (path : Path) (file : File) :
    testsBelow path [([], file)] = if file.isFile ∧ isTestFile path then [path] else [] := by
  rw [testsBelow, List.filter_singleton, List.append_nil]
  by_cases h : file.isFile ∧ isTestFile path
  · rw [if_pos h, decide_eq_true h]
    simp
  · rw [if_neg h, decide_eq_false h]
    rfl

mutual

theorem visit_eq_ok : ∀ (node : Node Text File String) {path : Path} {out out' : List Path},
    visit path node out = .ok out' ↔ node.Listed ∧ out' = out ++ testsBelow path node.leaves
  | .leaf file, path, out, out' => by
    rw [visit, Node.leaves, Node.Listed, Except.ok.injEq, true_and, testsBelow_leaf]
    by_cases h : file.isFile ∧ isTestFile path
    · rw [if_pos h, if_pos h, eq_comm]
    · rw [if_neg h, if_neg h, List.append_nil, eq_comm]
  | .dir entries, path, out, out' => by
    rw [visit, Node.leaves, Node.Listed]
    exact walk_eq_ok entries
  | .unlisted e, path, out, out' => by simp [visit, Node.Listed]

theorem walk_eq_ok : ∀ (entries : Listing Text File String) {dir : Path} {out out' : List Path},
    walk dir entries out = .ok out' ↔ entries.Listed ∧ out' = out ++ testsBelow dir entries.leaves
  | .done, dir, out, out' => by
    have hleaves : (.done : Listing Text File String).leaves = [] := rfl
    rw [walk, Listing.Listed, hleaves, Except.ok.injEq, true_and, testsBelow, List.filter_nil,
      List.map_nil, List.append_nil, eq_comm]
  | .failed e, dir, out, out' => by simp [walk, Listing.Listed]
  | .entry name node rest, dir, out, out' => by
    rw [walk, Listing.Listed, Listing.leaves, testsBelow, List.filter_append, List.map_append,
      ← testsBelow, ← testsBelow, testsBelow_cons]
    cases hvisit : visit (dir ++ [name]) node out with
    | error e =>
      refine iff_of_false (by simp) ?_
      rintro ⟨⟨hlisted, -⟩, -⟩
      rw [(visit_eq_ok node).mpr ⟨hlisted, rfl⟩] at hvisit
      cases hvisit
    | ok out₁ =>
      obtain ⟨hlisted, rfl⟩ := (visit_eq_ok node).mp hvisit
      dsimp only
      rw [walk_eq_ok rest, List.append_assoc]
      simp [hlisted]

end

/-- What running a directory should find: its regular files named `*.test`, however deep. -/
def IsTest (fs : FileTree) (dir path : Path) : Prop :=
  dir <+: path ∧ isTestFile path = true ∧
    ∃ file, fs.root.find path = some (.leaf file) ∧ file.isFile = true

theorem sorted_sortPaths {out : List Path} (hnodup : out.Nodup) :
    (sortPaths out).Pairwise (· < ·) := by
  have hsorted : (sortPaths out).Pairwise (· ≤ ·) := by
    have h := @List.pairwise_mergeSort Path (fun a b => decide (a ≤ b))
      (fun a b c hab hbc => decide_eq_true (le_trans (of_decide_eq_true hab)
        (of_decide_eq_true hbc)))
      (fun a b => by simpa using le_total a b) out
    exact h.imp of_decide_eq_true
  have hperm : (sortPaths out).Nodup := (List.mergeSort_perm out _).nodup_iff.mpr hnodup
  exact (hsorted.and hperm).imp fun h => lt_of_le_of_ne h.1 h.2

theorem mem_testsBelow {fs : FileTree} {dir path : Path} {node : Node Text File String}
    (hdir : fs.root.find dir = some node) :
    path ∈ testsBelow dir node.leaves ↔ IsTest fs dir path := by
  have hdistinct : node.Distinct := Distinct.find dir fs.distinct hdir
  simp only [testsBelow, List.mem_map, List.mem_filter, decide_eq_true_eq]
  constructor
  · rintro ⟨⟨rest, file⟩, ⟨hmem, hfile, htest⟩, rfl⟩
    refine ⟨List.prefix_append dir rest, htest, file, ?_, hfile⟩
    rw [find_append, hdir]
    exact (mem_leaves hdistinct).mp hmem
  · rintro ⟨⟨rest, rfl⟩, htest, file, hfind, hfile⟩
    rw [find_append, hdir] at hfind
    exact ⟨(rest, file), ⟨(mem_leaves hdistinct).mpr hfind, hfile, htest⟩, rfl⟩

theorem nodup_testsBelow {dir : Path} {node : Node Text File String} (h : node.Distinct) :
    (testsBelow dir node.leaves).Nodup := by
  have hfilter := (nodup_leaves h).sublist
    ((List.filter_sublist (p := fun x : List Text × File =>
      decide (x.2.isFile ∧ isTestFile (dir ++ x.1)))).map Prod.fst)
  have hmap := hfilter.map (List.append_right_injective dir)
  rwa [List.map_map] at hmap

structure Selected (fs : FileTree) (path : Path) (files : List Path) : Prop where
  mem : ∀ p, p ∈ files ↔
    (p = path ∧ ∃ file, fs.root.find path = some (.leaf file)) ∨ IsTest fs path p
  sorted : files.Pairwise (· < ·)
  nonempty : files ≠ []

def Untestable (fs : FileTree) (path : Path) : Prop :=
  fs.root.find path = none ∨ ∃ node, fs.root.find path = some node ∧
    (∀ file, node ≠ .leaf file) ∧ (¬node.Listed ∨ ∀ p, ¬IsTest fs path p)

theorem collectTestFiles_eq_ok {dir : Path} {node : Node Text File String} {files : List Path} :
    collectTestFiles dir node = .ok files ↔
      node.Listed ∧ files = sortPaths (testsBelow dir node.leaves) := by
  rw [collectTestFiles]
  cases hvisit : visit dir node [] with
  | error e =>
    refine iff_of_false (by simp [Except.map]) ?_
    rintro ⟨hlisted, -⟩
    rw [(visit_eq_ok node).mpr ⟨hlisted, rfl⟩] at hvisit
    cases hvisit
  | ok out =>
    obtain ⟨hlisted, rfl⟩ := (visit_eq_ok node).mp hvisit
    rw [List.nil_append]
    simp [Except.map, hlisted, eq_comm]

theorem mem_sortPaths {out : List Path} {p : Path} : p ∈ sortPaths out ↔ p ∈ out :=
  (List.mergeSort_perm out _).mem_iff

/-- Below a file there is nothing else. -/
theorem IsTest.eq_of_leaf {fs : FileTree} {path p : Path} {file : File} (h : IsTest fs path p)
    (hfile : fs.root.find path = some (.leaf file)) : p = path := by
  obtain ⟨⟨rest, rfl⟩, -, file', hfind, -⟩ := h
  rw [find_append, hfile] at hfind
  cases rest with
  | nil => exact List.append_nil path
  | cons => cases hfind

theorem testFiles_of_dir {fs : FileTree} {path : Path} {node : Node Text File String}
    (hnode : fs.root.find path = some node) (hdir : ∀ file, node ≠ .leaf file) :
    testFiles fs path = match collectTestFiles path node with
      | .error e => .error e
      | .ok [] => .error ("no `.test` files under " ++ display path)
      | .ok files => .ok files := by
  rw [testFiles, hnode]
  cases node with
  | leaf file => exact absurd rfl (hdir file)
  | dir entries => rfl
  | unlisted e => rfl

theorem not_untestable {fs : FileTree} {path p : Path} {node : Node Text File String}
    (hnode : fs.root.find path = some node) (hlisted : node.Listed)
    (hp : (∃ file, node = .leaf file) ∨ IsTest fs path p) : ¬Untestable fs path := by
  rintro (hnone | ⟨node', hnode', hdir, hbad⟩)
  · cases hnode.symm.trans hnone
  · cases hnode.symm.trans hnode'
    rcases hbad with hunlisted | hnotest
    · exact hunlisted hlisted
    · rcases hp with ⟨file, hfile⟩ | hp
      · exact hdir file hfile
      · exact hnotest p hp

/-- A directory whose test files are all found, or one of the two ways to fail. -/
theorem testFiles_dir {fs : FileTree} {path : Path} {node : Node Text File String}
    (hnode : fs.root.find path = some node) (hdir : ∀ file, node ≠ .leaf file) :
    (∃ files, testFiles fs path = .ok files ∧ Selected fs path files ∧ ¬Untestable fs path) ∨
      (∃ e, testFiles fs path = .error e) ∧ Untestable fs path := by
  have hdistinct : node.Distinct := Distinct.find path fs.distinct hnode
  have htest := testFiles_of_dir hnode hdir
  have hmem (p : Path) : p ∈ sortPaths (testsBelow path node.leaves) ↔ IsTest fs path p :=
    mem_sortPaths.trans (mem_testsBelow hnode)
  cases hcollect : collectTestFiles path node with
  | error e =>
    rw [hcollect] at htest
    refine .inr ⟨⟨e, htest⟩, .inr ⟨node, hnode, hdir, .inl fun hlisted => ?_⟩⟩
    rw [collectTestFiles_eq_ok.mpr ⟨hlisted, rfl⟩] at hcollect
    cases hcollect
  | ok files =>
    obtain ⟨hlisted, rfl⟩ := collectTestFiles_eq_ok.mp hcollect
    rw [hcollect] at htest
    cases hfiles : sortPaths (testsBelow path node.leaves) with
    | nil =>
      rw [hfiles] at htest
      refine .inr ⟨⟨_, htest⟩, .inr ⟨node, hnode, hdir, .inr fun p hp => ?_⟩⟩
      rw [← hmem p, hfiles] at hp
      cases hp
    | cons file files =>
      rw [hfiles] at htest
      have hfile : IsTest fs path file := by
        rw [← hmem, hfiles]
        exact List.mem_cons_self
      refine .inl ⟨file :: files, htest, ⟨fun p => ?_, ?_, List.cons_ne_nil _ _⟩,
        not_untestable hnode hlisted (.inr hfile)⟩
      · rw [← hfiles, hmem p]
        refine (or_iff_right ?_).symm
        rintro ⟨-, file, hfile⟩
        exact hdir file (Option.some.inj (hnode.symm.trans hfile))
      · rw [← hfiles]
        exact sorted_sortPaths (nodup_testsBelow hdistinct)

theorem testFiles_selected (fs : FileTree) (path : Path) :
    (∃ files, testFiles fs path = .ok files ∧ Selected fs path files ∧ ¬Untestable fs path) ∨
      (∃ e, testFiles fs path = .error e) ∧ Untestable fs path := by
  cases hnode : fs.root.find path with
  | none =>
    refine .inr ⟨⟨"stat " ++ display path ++ ": " ++ noSuchFile, ?_⟩, .inl hnode⟩
    rw [testFiles, hnode]
  | some node =>
    by_cases hleaf : ∃ file, node = .leaf file
    · obtain ⟨file, rfl⟩ := hleaf
      have hlisted : (.leaf file : Node Text File String).Listed := by rw [Node.Listed]; trivial
      refine .inl ⟨[path], ?_, ⟨fun p => ?_, List.pairwise_singleton _ _, List.cons_ne_nil _ _⟩,
        not_untestable (p := path) hnode hlisted (.inl ⟨file, rfl⟩)⟩
      · rw [testFiles, hnode]
      · rw [List.mem_singleton]
        constructor
        · exact fun hp => .inl ⟨hp, file, hnode⟩
        · rintro (⟨hp, -⟩ | hp)
          · exact hp
          · exact hp.eq_of_leaf hnode
    · exact testFiles_dir hnode fun file hfile => hleaf ⟨file, hfile⟩

end EcScript
