import Mathlib.Data.List.Basic
import Mathlib.Data.List.Infix

/-! # Frames that end with a delimiter

A stream is cut behind every delimiter. What stands behind the last one is a frame that has only
begun. -/
namespace DelimitedFrames

variable {α : Type}

def IsFrame (stop : α) (frame : List α) : Prop := ∃ body, frame = body ++ [stop] ∧ stop ∉ body

variable [DecidableEq α] (stop : α)

def push (s : List (List α) × List α) (a : α) : List (List α) × List α :=
  if a = stop then (s.1 ++ [s.2 ++ [a]], []) else (s.1, s.2 ++ [a])

def cut (stream : List α) : List (List α) × List α := stream.foldl (push stop) ([], [])

theorem cut_snoc (stream : List α) (a : α) :
    cut stop (stream ++ [a]) = push stop (cut stop stream) a := by
  rw [cut, List.foldl_append]
  rfl

theorem cut_snoc_stop (stream : List α) :
    cut stop (stream ++ [stop]) =
      ((cut stop stream).1 ++ [(cut stop stream).2 ++ [stop]], []) := by
  rw [cut_snoc, push, if_pos rfl]

variable {stop}

theorem cut_snoc_of_ne {a : α} (h : a ≠ stop) (stream : List α) :
    cut stop (stream ++ [a]) = ((cut stop stream).1, (cut stop stream).2 ++ [a]) := by
  rw [cut_snoc, push, if_neg h]

/-- A begun frame is extended. -/
theorem cut_append_of_notMem {part : List α} (h : stop ∉ part) (stream : List α) :
    cut stop (stream ++ part) = ((cut stop stream).1, (cut stop stream).2 ++ part) := by
  induction part using List.reverseRecOn with
  | nil => simp
  | append_singleton part a ih =>
    simp only [List.mem_append, List.mem_singleton, not_or] at h
    rw [← List.append_assoc, cut_snoc_of_ne (Ne.symm h.2), ih h.1, List.append_assoc]

/-- At a boundary the next frame comes out as it went in. -/
theorem cut_append_frame {stream frame : List α} (h : IsFrame stop frame)
    (hboundary : (cut stop stream).2 = []) :
    cut stop (stream ++ frame) = ((cut stop stream).1 ++ [frame], []) := by
  obtain ⟨body, rfl, hbody⟩ := h
  rw [← List.append_assoc, cut_snoc_stop, cut_append_of_notMem hbody, hboundary, List.nil_append]

theorem cut_frames {frames : List (List α)} (h : ∀ frame ∈ frames, IsFrame stop frame) :
    cut stop frames.flatten = (frames, []) := by
  induction frames using List.reverseRecOn with
  | nil => rfl
  | append_singleton frames frame ih =>
    have hbefore := ih fun f hf => h f (List.mem_append_left _ hf)
    have hframe := h frame (List.mem_append_right _ List.mem_cons_self)
    rw [List.flatten_append, List.flatten_singleton,
      cut_append_frame hframe (by rw [hbefore]), hbefore]

theorem flatten_cut (stream : List α) :
    (cut stop stream).1.flatten ++ (cut stop stream).2 = stream := by
  induction stream using List.reverseRecOn with
  | nil => rfl
  | append_singleton stream a ih =>
    by_cases ha : a = stop
    · subst ha
      rw [cut_snoc_stop, List.flatten_append, List.flatten_singleton, List.append_nil,
        ← List.append_assoc, ih]
    · rw [cut_snoc_of_ne ha, ← List.append_assoc, ih]

theorem cut_isFrame (stream : List α) :
    (∀ frame ∈ (cut stop stream).1, IsFrame stop frame) ∧ stop ∉ (cut stop stream).2 := by
  induction stream using List.reverseRecOn with
  | nil => exact ⟨List.forall_mem_nil _, List.not_mem_nil⟩
  | append_singleton stream a ih =>
    by_cases ha : a = stop
    · subst ha
      rw [cut_snoc_stop]
      refine ⟨fun frame hframe => ?_, List.not_mem_nil⟩
      rcases List.mem_append.mp hframe with hframe | hframe
      · exact ih.1 frame hframe
      · rw [List.mem_singleton.mp hframe]
        exact ⟨_, rfl, ih.2⟩
    · rw [cut_snoc_of_ne ha]
      refine ⟨ih.1, fun hstop => ?_⟩
      rcases List.mem_append.mp hstop with hstop | hstop
      · exact ih.2 hstop
      · exact ha (List.mem_singleton.mp hstop).symm

/-- There is one way to cut a stream. -/
theorem cut_eq_iff {stream part : List α} {frames : List (List α)} :
    cut stop stream = (frames, part) ↔
      (∀ frame ∈ frames, IsFrame stop frame) ∧ stop ∉ part ∧ frames.flatten ++ part = stream := by
  constructor
  · intro h
    have hframes := @cut_isFrame α _ stop stream
    have hflatten := @flatten_cut α _ stop stream
    rw [h] at hframes hflatten
    exact ⟨hframes.1, hframes.2, hflatten⟩
  · rintro ⟨hframes, hpart, rfl⟩
    rw [cut_append_of_notMem hpart, cut_frames hframes, List.nil_append]

theorem cut_frames_append {frames : List (List α)}
    (h : ∀ frame ∈ frames, IsFrame stop frame) (stream : List α) :
    cut stop (frames.flatten ++ stream) = (frames ++ (cut stop stream).1, (cut stop stream).2) := by
  obtain ⟨hrest, hpart⟩ := @cut_isFrame α _ stop stream
  refine cut_eq_iff.mpr ⟨fun frame hframe => ?_, hpart, ?_⟩
  · rcases List.mem_append.mp hframe with hframe | hframe
    · exact h frame hframe
    · exact hrest frame hframe
  · rw [List.flatten_append, List.append_assoc, flatten_cut]

end DelimitedFrames
