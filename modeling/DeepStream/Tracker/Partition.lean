/-
# The lists of frames partition the batch

`queueFrames` counts the frames of each stream as it goes through the batch: a frame
goes to the list whose number is the count so far, and the lists grow to hold it. So
the `k`-th list has of every stream its `k`-th frame that is to be tracked, and the
lists together have each of these frames once.
-/
import DeepStream.Tracker.Sequence

namespace DeepStream
namespace Tracker

open Std

/-- The frames of a stream, in their order. -/
def ofStream (ssId : SurfaceStreamId) (frames : List NvDsFrameMeta) : List NvDsFrameMeta :=
  frames.filter fun frame => frame.ssId = ssId

/-- What list `k` has of the stream. -/
def frameAt (lists : List FrameMap) (k : ℕ) (ssId : SurfaceStreamId) : Option NvDsFrameMeta :=
  lists[k]?.bind fun l => l[ssId]?

/-- The lists partition the frames. -/
structure Parted (frames : List NvDsFrameMeta) (st : TreeMap SurfaceStreamId ℕ × List FrameMap) : Prop where
  count : ∀ ssId, st.1.getD ssId 0 = (ofStream ssId frames).length
  kth : ∀ k ssId, frameAt st.2 k ssId = (ofStream ssId frames)[k]?
  perm : (framesOf st.2).Perm frames

/-! ### Lists that grow -/

theorem frameAt_grow (lists : List FrameMap) (n k : ℕ) (ssId : SurfaceStreamId) :
    frameAt (lists ++ List.replicate n ∅) k ssId = frameAt lists k ssId := by
  unfold frameAt
  by_cases hk : k < lists.length
  · rw [List.getElem?_append_left hk]
  · rw [List.getElem?_append_right (Nat.le_of_not_lt hk), List.getElem?_eq_none (Nat.le_of_not_lt hk),
      List.getElem?_replicate]
    split <;> simp

theorem framesOf_grow (lists : List FrameMap) (n : ℕ) : framesOf (lists ++ List.replicate n ∅) = framesOf lists := by
  have hempty : (∅ : FrameMap).toList = [] := rfl
  simp [framesOf, hempty]

/-- A list that gets one more element when one of its parts does. -/
theorem perm_flatMap_modify {α β : Type*} {f : α → α} {g : α → List β} {a : α} {x : β}
    (hg : (g (f a)).Perm (x :: g a)) : ∀ {l : List α} {i : ℕ}, l[i]? = some a →
      ((l.modify i f).flatMap g).Perm (x :: l.flatMap g)
  | [], i, h => by simp at h
  | b :: l, 0, h => by
    obtain rfl : b = a := by simpa using h
    simpa using hg.append_right (l.flatMap g)
  | b :: l, i + 1, h => by
    have ih := perm_flatMap_modify hg (l := l) (i := i) (by simpa using h)
    simp only [List.modify_succ_cons, List.flatMap_cons]
    exact (ih.append_left (g b)).trans List.perm_middle

theorem perm_insert_of_notMem {l : FrameMap} {ssId : SurfaceStreamId} (frame : NvDsFrameMeta) (h : l[ssId]? = none) :
    ((l.insert ssId frame).toList.map Prod.snd).Perm (frame :: l.toList.map Prod.snd) := by
  have hall : ∀ e ∈ l.toList, (!(ssId == e.1)) = true := by
    intro e he
    rw [Bool.not_eq_true', beq_eq_false_iff_ne]
    rintro rfl
    rw [TreeMap.mem_toList_iff_getElem?_eq_some.mp he] at h
    cases h
  have hperm := (TreeMap.toList_insert_perm (t := l) (k := ssId) (v := frame)).map Prod.snd
  simp only [decide_not, Bool.decide_eq_true, List.map_cons] at hperm
  rwa [List.filter_eq_self.mpr hall] at hperm

/-! ### One frame more -/

theorem ofStream_append (ssId : SurfaceStreamId) (frames : List NvDsFrameMeta) (frame : NvDsFrameMeta) :
    ofStream ssId (frames ++ [frame]) = ofStream ssId frames ++ if frame.ssId = ssId then [frame] else [] := by
  rw [ofStream, List.filter_append, List.filter_singleton, ofStream]
  by_cases h : frame.ssId = ssId
  · rw [if_pos h, decide_eq_true h, cond_true]
  · rw [if_neg h, decide_eq_false h, cond_false]

theorem Parted.step {frames : List NvDsFrameMeta} {st : TreeMap SurfaceStreamId ℕ × List FrameMap}
    (h : Parted frames st) (frame : NvDsFrameMeta) : Parted (frames ++ [frame]) (queueFrame st frame) := by
  have hcount := h.count frame.ssId
  -- the list that gets the frame, and that it has none of the stream
  obtain ⟨l, hl⟩ : ∃ l, (st.2 ++ List.replicate (st.1.getD frame.ssId 0 + 1 - st.2.length) ∅)[st.1.getD frame.ssId 0]? =
      some l := by
    refine ⟨_, List.getElem?_eq_getElem ?_⟩
    rw [List.length_append, List.length_replicate]
    omega
  have hnone : l[frame.ssId]? = none := by
    have := frameAt_grow st.2 (st.1.getD frame.ssId 0 + 1 - st.2.length) (st.1.getD frame.ssId 0) frame.ssId
    rw [h.kth, frameAt, hl, hcount, List.getElem?_eq_none le_rfl] at this
    exact this
  constructor
  · intro ssId
    rw [queueFrame, TreeMap.getD_insert, ofStream_append, List.length_append, h.count, h.count]
    simp only [LawfulEqOrd.compare_eq_iff_eq]
    by_cases heq : frame.ssId = ssId
    · rw [if_pos heq, if_pos heq, heq]
      rfl
    · rw [if_neg heq, if_neg heq]
      rfl
  · intro k ssId
    rw [ofStream_append]
    simp only [queueFrame, frameAt, List.getElem?_modify]
    by_cases hk : st.1.getD frame.ssId 0 = k
    · rw [← hk, hl]
      have hold : l[ssId]? = (ofStream ssId frames)[st.1.getD frame.ssId 0]? := by
        rw [← h.kth, ← frameAt_grow, frameAt, hl]
        rfl
      simp only [if_true, Option.map_eq_map, Option.map_some, Option.bind_some, Table.getElem?_insert]
      by_cases heq : frame.ssId = ssId
      · subst heq
        rw [if_pos rfl, if_pos rfl, hcount, List.getElem?_append_right le_rfl, Nat.sub_self]
        rfl
      · rw [if_neg (Ne.symm heq), if_neg heq, List.append_nil, hold]
    · simp only [if_neg hk, Option.map_eq_map, Option.map_id']
      refine (frameAt_grow _ _ k ssId).trans ((h.kth k ssId).trans ?_)
      by_cases heq : frame.ssId = ssId
      · subst heq
        rw [if_pos rfl, List.getElem?_append]
        split
        · rfl
        · rename_i hge
          rw [List.getElem?_eq_none (by omega), List.getElem?_eq_none (by simp only [List.length_singleton]; omega)]
      · rw [if_neg heq, List.append_nil]
  · calc framesOf (queueFrame st frame).2
      _ |>.Perm (frame :: framesOf (st.2 ++ List.replicate (st.1.getD frame.ssId 0 + 1 - st.2.length) ∅)) :=
        perm_flatMap_modify (perm_insert_of_notMem frame hnone) hl
      _ = frame :: framesOf st.2 := by rw [framesOf_grow]
      _ |>.Perm (frame :: frames) := h.perm.cons frame
      _ |>.Perm (frames ++ [frame]) := (List.perm_append_singleton frame frames).symm

theorem parted_foldl : ∀ (l frames : List NvDsFrameMeta) (st : TreeMap SurfaceStreamId ℕ × List FrameMap),
    Parted frames st → Parted (frames ++ l) (l.foldl queueFrame st)
  | [], frames, st, h => by rwa [List.append_nil]
  | frame :: l, frames, st, h => by
    have := parted_foldl l (frames ++ [frame]) _ (h.step frame)
    rwa [List.append_assoc, List.singleton_append] at this

/-- **The lists partition the frames that are to be tracked.** They have each of these
once and no others, list `k` has of every stream the frame that `k` of its frames are
before, and no list is empty. -/
theorem queueFrames_partition (cfg : TrackerConfig) (frames : List (Option NvDsFrameMeta)) :
    let selected := frames.filterMap cfg.selects
    let batchList := queueFrames cfg frames
    (framesOf batchList).Perm selected ∧
      (∀ k ssId, frameAt batchList k ssId = (ofStream ssId selected)[k]?) ∧
      ∀ l ∈ batchList, l.size ≠ 0 := by
  have hparted : Parted (frames.filterMap cfg.selects) ((frames.filterMap cfg.selects).foldl queueFrame (∅, [])) := by
    refine parted_foldl _ [] _ ⟨fun ssId => ?_, fun k ssId => ?_, ?_⟩
    · simp [ofStream]
    · simp [ofStream, frameAt]
    · simp [framesOf]
  exact ⟨hparted.perm, hparted.kth, fun l hl => (mem_queueFrames hl).1⟩

end Tracker
end DeepStream
