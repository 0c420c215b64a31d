/-
# The buffers of the sequence preprocessing library

Every buffer that has been acquired is that of a block, of a batch that is being
filled or waits to be returned, or the caller's, and two of these never have the
same one. This holds at every moment of a call.
-/
import DeepStream.Lib.Loans
import DeepStream.Sequence.Steps

namespace DeepStream
namespace Sequence

variable {F α : Type*} {lib : SequenceImagePreprocess F α}

namespace BufferManager

variable {s s' : BufferManager F α} {others : List ℕ}

/-- The buffers that the manager has. -/
def bufs (s : BufferManager F α) : List ℕ := s.accumulateBlocks.map (·.buf) ++ s.readyPendings.map (·.readyBuf)

/-- The buffers that are out are the manager's and `others`. -/
def Owned (s : BufferManager F α) (others : List ℕ) : Prop := Loans s.out (s.bufs ++ others)

namespace Owned

theorem of_eq (h : s.Owned others) (hout : s'.out = s.out) (hbufs : s'.bufs = s.bufs) : s'.Owned others := by
  unfold Owned
  rw [hout, hbufs]
  exact h

/-- The buffer just acquired is one of the others. -/
theorem acquire (h : s.Owned others) (hlib : lib.Fresh) : (s.acquire lib).2.Owned ((s.acquire lib).1 :: others) :=
  (Loans.acquire h (hlib s.out)).of_perm List.perm_middle.symm

theorem release {buf : ℕ} (h : s.Owned (buf :: others)) : (s.release buf).Owned others :=
  Loans.release (h.of_perm List.perm_middle)

theorem addRoi (h : s.Owned others) (hlib : lib.Fresh) (key : SourceKey) (u : NvDsPreProcessUnit F) :
    (s.addRoi lib key u).Owned others := by
  rcases addRoi_cases lib s key u with ⟨block, blocks, hblocks, -, heq⟩ | heq
  · rw [heq]
    refine h.of_eq rfl ?_
    simp [bufs, placeRoi, hblocks]
  · rw [heq]
    exact (h.acquire hlib).of_perm List.perm_middle

theorem prepareUnits_eq [Add F] [Mul F] [Zero α] [Add α] [Mul α] [Neg α] {launch : ℕ → Bool} {fs : List (Frame F)}
    {r : Option NvDsPreProcessStatus × BufferManager F α} (hunits : prepareUnits lib launch fs s = some r) :
    r.2.out = s.out ∧ r.2.bufs = s.bufs := by
  refine prepareUnits_invariant (I := fun m => m.out = s.out ∧ m.bufs = s.bufs) ?_ ⟨rfl, rfl⟩ hunits
  intro m f l r hm hr
  cases hr <;> exact hm

/-- The batch that is being filled has a buffer of its own. -/
theorem startFilling {filling : Option (Filling F)} (h : s.Owned (filling.toList.map (·.buf) ++ others))
    (hlib : lib.Fresh) :
    (s.startFilling lib filling).2.Owned ((s.startFilling lib filling).1.buf :: others) := by
  rcases startFilling_cases lib s filling with ⟨fill, rfl, heq⟩ | ⟨rfl, heq⟩
  · rw [heq]
    exact h
  · rw [heq]
    exact Owned.acquire h hlib

/-- A batch that is queued keeps its buffer. -/
theorem push {fill : Filling F} (h : s.Owned (fill.buf :: others)) (batchSize : ℕ) :
    (s.push fill batchSize).Owned others := by
  refine Loans.of_perm h (List.Perm.of_eq ?_)
  simp [bufs, BufferManager.push]

theorem roiCases {copy : Bool} {b : RoiProcessedBuf F} {filling : Option (Filling F)}
    {r : Bool × RoiProcessedBuf F × Option (Filling F) × BufferManager F α}
    (h : s.Owned (filling.toList.map (·.buf) ++ others)) (hlib : lib.Fresh) (hr : RoiCases lib s copy b filling r) :
    r.2.2.2.Owned (r.2.2.1.toList.map (·.buf) ++ others) := by
  have hfill := h.startFilling hlib
  cases hr with
  | idle hready => exact h
  | failed hready hstart hcopy =>
    rw [hstart] at hfill
    exact hfill
  | added hready hstart hcopy hblock hstride hroom =>
    rw [hstart] at hfill
    exact hfill.of_eq rfl rfl
  | @full fill s₁ block hready hstart hcopy hblock hstride hfull =>
    rw [hstart] at hfill
    have hcopied : (s₁.copied lib fill block b).Owned ((fill.add b).buf :: others) := hfill.of_eq rfl rfl
    exact hcopied.push _

theorem collectReady {copy : SourceKey → Bool} {r : Bool × BufferManager F α} (h : s.Owned others) (hlib : lib.Fresh)
    (hcollect : s.collectReady lib copy = some r) : r.2.Owned others := by
  obtain ⟨ok, l, filling, s₁, hrois, hend⟩ := collectReady_cases hcollect
  obtain ⟨mid, rest, -, howned, -⟩ := collectRois_invariant
    (J := fun _ _ filling m => m.Owned (filling.toList.map (·.buf) ++ others))
    (fun hJ hr => hJ.roiCases hlib hr) [] h hrois
  rcases hend with ⟨rfl, rfl⟩ | ⟨fill, rfl, ⟨rfl, rfl⟩ | ⟨rfl, rfl⟩⟩
  · exact howned.of_eq rfl rfl
  · have hleft : ({ s₁ with src2dstMap := l } : BufferManager F α).Owned (fill.buf :: others) := howned.of_eq rfl rfl
    exact hleft.push _
  · have hleft : ({ s₁ with src2dstMap := l } : BufferManager F α).Owned (fill.buf :: others) := howned.of_eq rfl rfl
    exact hleft.release

/-- What is returned is the caller's, what is dropped the pool's. -/
theorem popReady (h : s.Owned others) : s.popReady.2.Owned (s.popReady.1.toList.map (·.readyBuf) ++ others) := by
  unfold BufferManager.popReady
  cases hlast : s.readyPendings.getLast? with
  | none => exact h
  | some res =>
    have hsplit : s.readyPendings = s.readyPendings.dropLast ++ [res] :=
      (List.dropLast_append_getLast? res hlast).symm
    have hfold : ∀ (l : List (ReadyResult F)) (out : List ℕ),
        l.foldl (fun out old => out.erase old.readyBuf) out = (l.map (·.readyBuf)).foldl List.erase out := by
      intro l out
      rw [List.foldl_map]
    show Loans (s.readyPendings.dropLast.foldl (fun out old => out.erase old.readyBuf) s.out) _
    rw [hfold]
    refine Loans.releaseAll (Loans.of_perm h ?_)
    rw [List.perm_iff_count]
    intro a
    have hcount : (s.readyPendings.map (·.readyBuf)).count a =
        (s.readyPendings.dropLast.map (·.readyBuf)).count a + [res.readyBuf].count a := by
      conv_lhs => rw [hsplit]
      rw [List.map_append, List.count_append, List.map_singleton]
    simp only [bufs, List.count_append, hcount, List.map_nil, List.append_nil, Option.toList_some, List.map_cons]
    omega

theorem clearAll (h : s.Owned others) : s.clearAll.Owned others := by
  refine Loans.releaseAll (Loans.of_perm h ?_)
  exact List.Perm.append_right _ List.perm_append_comm

variable [Add F] [Mul F]

theorem buildRoiBlocks (h : s.Owned others) (hlib : lib.Fresh) (us : List (NvDsPreProcessUnit F)) :
    (buildRoiBlocks lib us s).Owned others :=
  buildRoiBlocks_invariant (I := fun m => m.Owned others) (fun hm _ => hm.addRoi hlib _ _) h

variable [Zero α] [Add α] [Mul α] [Neg α]

theorem prepareTensorData {batch : NvDsPreProcessBatch F} {cuda : Cuda}
    {r : NvDsPreProcessStatus × Option (ReadyResult F) × BufferManager F α} (h : s.Owned others) (hlib : lib.Fresh)
    (hcall : s.prepareTensorData lib batch cuda = some r) :
    r.2.2.Owned (r.2.1.toList.map (·.readyBuf) ++ others) := by
  have hbuild := h.buildRoiBlocks hlib batch.units
  have hkept : ∀ {st m}, prepareUnits lib cuda.launch batch.frames (BufferManager.buildRoiBlocks lib batch.units s) =
      some (st, m) → m.Owned others := by
    intro st m hunits
    have heq := prepareUnits_eq hunits
    exact hbuild.of_eq heq.1 heq.2
  cases prepareTensorData_cases hcall with
  | refused hno => exact h
  | noDevice hno => exact hbuild
  | stopped hbegins hunits => exact hkept hunits
  | failed hbegins hunits hcollect hno => exact (hkept hunits).collectReady hlib hcollect
  | popped st hbegins hunits hcollect hsync => exact ((hkept hunits).collectReady hlib hcollect).popReady

end Owned
end BufferManager

namespace State

variable {s s' : State F α}

theorem owned_started (h : s.Started) : s.manager.Owned s.handed := by
  obtain ⟨memory, rfl⟩ := h
  exact Loans.nil

variable [Add F] [Mul F] [Zero α] [Add α] [Mul α] [Neg α]

/-- Every buffer that is out has exactly one holder, whatever the caller does. -/
theorem owned_step {a : Action F} (h : s.manager.Owned s.handed) (hlib : lib.Fresh) (hs : s.step lib a = some s') :
    s'.manager.Owned s'.handed := by
  cases a with
  | prepare batch cuda =>
    obtain ⟨r, hcall, rfl⟩ := Option.map_eq_some_iff.mp hs
    exact h.prepareTensorData hlib hcall
  | giveBack buf =>
    obtain ⟨hmem, rfl⟩ := giveBack_eq hs
    exact Loans.release_of_mem h hmem
  | clearAll =>
    obtain rfl := Option.some.inj hs
    exact h.clearAll

end State
end Sequence
end DeepStream
