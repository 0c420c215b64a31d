/-
# Scale ratios of the requests of gst-nvinferserver

The surface converter of the inference context writes the scale ratios of a request
into its batch surface buffer. They reach the frames of the request, from which the
output thread reads them when it attaches the detections, by the deleter of that
buffer: `ReturnScaleParams` runs on whichever thread drops the last reference.
References are held by the submitting thread (the local variable, and the argument
of `batchInference` until it returns) and by the batch array, until the converter
puts its own buffer there.

A conversion that fails ends the process (`preprocessDone` follows a null pointer),
so a conversion always succeeds here. When the context is through with a request,
and how, is chosen with the step. `reads` records what the output thread read.
-/
import DeepStream.InferServer.QueueThread
import DeepStream.Lib.Run

namespace DeepStream
namespace InferServer

/-! ### The ratios -/

/-- A quotient of two whole numbers as a `double`. -/
structure Ratio where
  num : ℕ
  den : ℕ
  deriving DecidableEq, Repr

def Ratio.IsZero (r : Ratio) : Prop := r.num = 0 ∧ r.den ≠ 0

structure ScaleParams where
  scaleRatioX : Ratio := ⟨0, 1⟩
  scaleRatioY : Ratio := ⟨0, 1⟩
  offsetLeft : ℕ := 0
  offsetTop : ℕ := 0
  deriving DecidableEq, Repr

/-- `NvBufSurfTransformRect`. -/
structure Rect where
  top : ℕ
  left : ℕ
  width : ℕ
  height : ℕ
  deriving DecidableEq, Repr

/-- `INFER_ROUND_DOWN(n, 2)`. -/
def roundDown (n : ℕ) : ℕ := n / 2 * 2

/-- The settings of `CropSurfaceConverter`. -/
structure Converter where
  dstWidth : ℕ
  dstHeight : ℕ
  maintainAspectRatio : Bool
  symmetricPadding : Bool
  deriving DecidableEq, Repr

namespace Converter

variable (c : Converter) (crop : Rect)

/-- The width and height into which `resizeBatch` scales a crop. -/
def scaledSize : ℕ × ℕ :=
  let srcW := roundDown crop.width
  let srcH := roundDown crop.height
  if c.maintainAspectRatio then
    if c.dstWidth * srcH ≤ c.dstHeight * srcW then
      (roundDown c.dstWidth, roundDown (c.dstWidth * srcH / srcW))
    else (roundDown (c.dstHeight * srcW / srcH), roundDown c.dstHeight)
  else (roundDown c.dstWidth, roundDown c.dstHeight)

/-- What `resizeBatch` sets for a frame. -/
def scaleParams : ScaleParams :=
  let (dstW, dstH) := c.scaledSize crop
  { scaleRatioX := ⟨dstW, roundDown crop.width⟩
    scaleRatioY := ⟨dstH, roundDown crop.height⟩
    offsetLeft := if c.symmetricPadding then (c.dstWidth - dstW) / 2 else 0
    offsetTop := if c.symmetricPadding then (c.dstHeight - dstH) / 2 else 0 }

/-- The crop is not so flat or narrow that nothing is left of a side. -/
def Fits : Prop :=
  ((c.scaledSize crop).1 = 0 → roundDown crop.width = 0) ∧ ((c.scaledSize crop).2 = 0 → roundDown crop.height = 0)

instance : Decidable (c.Fits crop) := inferInstanceAs (Decidable (_ ∧ _))

end Converter

/-! ### A request -/

inductive Party where
  | submitter
  | converter
  deriving DecidableEq, Repr

/-- `ReturnScaleParams`, run by a thread, at a frame. -/
inductive ReturnScaleParams where
  | notYet
  | at (party : Party) (i : ℕ)
  | returned
  deriving DecidableEq, Repr

/-- Where the submitting thread is: the context has the request, its end is queued,
`batchInference` has returned, the local variable is gone, next request. -/
inductive Submitting where
  | accepted | queued | back | dropped | through
  deriving DecidableEq, Repr

inductive InContext where
  | waiting | converted | dropped | inBackend
  | completed (ok : Bool)
  deriving DecidableEq, Repr

inductive Attaching where
  | waiting
  | at (i : ℕ)
  | finished
  deriving DecidableEq, Repr

def Submitting.refs : Submitting → ℕ
  | .accepted | .queued => 2
  | .back => 1
  | .dropped | .through => 0

def InContext.refs : InContext → ℕ
  | .waiting | .converted => 1
  | .dropped | .inBackend | .completed _ => 0

/-- What `attachBatchDetection` reads for a frame; `returned` tells whether the
parameters of all frames were there. -/
structure Read where
  frame : ℕ
  params : ScaleParams
  returned : Bool
  deriving DecidableEq, Repr

/-- `surface` is in the batch surface buffer, `frames` in the request. -/
structure Request where
  crops : List Rect
  surface : List ScaleParams
  frames : List ScaleParams
  returning : ReturnScaleParams := .notYet
  submitter : Submitting := .accepted
  context : InContext := .waiting
  output : Attaching := .waiting
  reads : List Read := []
  deriving DecidableEq, Repr

namespace Request

variable (q : Request)

def new (crops : List Rect) : Request :=
  { crops := crops, surface := crops.map fun _ => {}, frames := crops.map fun _ => {} }

/-- The references to the batch surface buffer. -/
def refs : ℕ := q.submitter.refs + q.context.refs

/-- The party has dropped a reference. -/
def drop (p : Party) : Request := if q.refs = 0 then { q with returning := .at p 0 } else q

/-- `ReturnScaleParams` goes on at a frame. -/
def returnNext (p : Party) (i : ℕ) : Request :=
  match q.surface[i]? with
  | some params => { q with frames := q.frames.set i params, returning := .at p (i + 1) }
  | none => { q with returning := .returned }

/-- The submitting thread goes on. -/
def submitterGoesOn : Option Request :=
  match q.returning with
  | .at .submitter i => some (q.returnNext .submitter i)
  | _ =>
    match q.submitter with
    | .accepted => some { q with submitter := .queued }
    | .queued => some (drop { q with submitter := .back } .submitter)
    | .back => some (drop { q with submitter := .dropped } .submitter)
    | .dropped => some { q with submitter := .through }
    | .through => none

/-- The converter thread goes on. -/
def converterGoesOn (c : Converter) : Option Request :=
  match q.returning with
  | .at .converter i => some (q.returnNext .converter i)
  | _ =>
    match q.context with
    | .waiting => some { q with surface := q.crops.map c.scaleParams, context := .converted }
    | .converted => some (drop { q with context := .dropped } .converter)
    | .dropped => some { q with context := .inBackend }
    | _ => none

def complete (ok : Bool) : Option Request :=
  if q.context = .inBackend then some { q with context := .completed ok } else none

/-- The output thread goes on in `InferenceDone`. -/
def outputGoesOn : Option Request :=
  match q.output with
  | .waiting =>
    match q.context with
    | .completed ok => some { q with output := if ok then .at 0 else .finished }
    | _ => none
  | .at i =>
    match q.frames[i]? with
    | some params => some { q with output := .at (i + 1), reads := q.reads ++ [⟨i, params, q.returning = .returned⟩] }
    | none => some { q with output := .finished }
  | .finished => none

/-- Every frame is scaled with what the converter set for it, and not with zero. -/
def ScalesOwn (c : Converter) : Prop :=
  ∀ r ∈ q.reads, r.returned ∧ ∃ crop, q.crops[r.frame]? = some crop ∧ r.params = c.scaleParams crop ∧
    ¬ r.params.scaleRatioX.IsZero ∧ ¬ r.params.scaleRatioY.IsZero

end Request

/-! ### The threads -/

structure Scaling where
  requests : List Request := []
  submitting : Option ℕ := none
  converter : QueueThread ℕ := {}
  output : QueueThread ℕ := {}
  deriving DecidableEq, Repr

namespace Scaling

inductive Action where
  | submit (crops : List Rect)
  | submitterGoesOn
  | popConverter
  | converterGoesOn
  | complete (r : ℕ) (ok : Bool)
  | popOutput
  | outputGoesOn
  deriving DecidableEq, Repr

variable (c : Converter) (s : Scaling)

/-- A thread goes on with a request. -/
def goOn (r : ℕ) (f : Request → Option Request) : Option (Request × Scaling) :=
  s.requests[r]?.bind fun q => (f q).map fun q' => (q', { s with requests := s.requests.set r q' })

def step (s : Scaling) : Action → Option Scaling
  | .submit crops =>
    if s.submitting = none ∧ crops ≠ [] then
      some { s with requests := s.requests ++ [.new crops], submitting := some s.requests.length,
                    converter := s.converter.queueItem s.requests.length }
    else none
  | .submitterGoesOn =>
    s.submitting.bind fun r => (s.goOn r Request.submitterGoesOn).map fun (q, s') =>
      match q.submitter with
      | .queued => { s' with output := s.output.queueItem r }
      | .through => { s' with submitting := none }
      | _ => s'
  | .popConverter => s.converter.pop.map fun t => { s with converter := t }
  | .converterGoesOn =>
    s.converter.items.running.bind fun r => (s.goOn r (Request.converterGoesOn · c)).bind fun (q, s') =>
      if q.context = .inBackend then (s.converter.ran true).map fun t => { s' with converter := t } else some s'
  | .complete r ok => (s.goOn r (Request.complete · ok)).map (·.2)
  | .popOutput => s.output.pop.map fun t => { s with output := t }
  | .outputGoesOn =>
    s.output.items.running.bind fun r => (s.goOn r Request.outputGoesOn).bind fun (q, s') =>
      if q.output = .finished then (s.output.ran true).map fun t => { s' with output := t } else some s'

def Started (s : Scaling) : Prop := s = {}

/-- Something is left of every frame, and the output thread attaches the detections
of a request when the submitting thread is through with it. -/
def InTurn (s : Scaling) : Action → Prop
  | .submit crops => ∀ crop ∈ crops, c.Fits crop
  | .outputGoesOn => ∀ r ∈ s.output.items.running, ∀ q ∈ s.requests[r]?, q.submitter = .through
  | _ => True

def ScalesOwn : Prop := ∀ q ∈ s.requests, q.ScalesOwn c

end Scaling

/-! ### The invariant of a request -/

theorem Converter.Fits.not_isZero {c : Converter} {crop : Rect} (h : c.Fits crop) :
    ¬ (c.scaleParams crop).scaleRatioX.IsZero ∧ ¬ (c.scaleParams crop).scaleRatioY.IsZero :=
  ⟨fun hx => hx.2 (h.1 hx.1), fun hy => hy.2 (h.2 hy.1)⟩

namespace Request

/-- The parameters of the frames against the references to the buffer. -/
structure Good (c : Converter) (q : Request) : Prop where
  fits : ∀ crop ∈ q.crops, c.Fits crop
  lengths : q.surface.length = q.crops.length ∧ q.frames.length = q.crops.length
  surface : q.context ≠ .waiting → q.surface = q.crops.map c.scaleParams
  notYet : q.returning = .notYet → 0 < q.refs
  running : ∀ p i, q.returning = .at p i → q.refs = 0 ∧ (∀ j < i, q.frames[j]? = q.surface[j]?) ∧
    (p = .submitter → q.submitter = .dropped) ∧ (p = .converter → q.context = .dropped)
  returned : q.returning = .returned → q.refs = 0 ∧ q.frames = q.surface
  attaching : ∀ i, q.output = .at i → ∃ ok, q.context = .completed ok
  own : q.ScalesOwn c

variable {c : Converter} {q q' : Request}

theorem refs_pos_left (h : 0 < q.submitter.refs) : 0 < q.refs := Nat.add_pos_left h _

theorem refs_pos_right (h : 0 < q.context.refs) : 0 < q.refs := Nat.add_pos_right _ h

namespace Good

theorem new {crops : List Rect} (h : ∀ crop ∈ crops, c.Fits crop) : (new crops).Good c := by
  constructor
  · exact h
  · simp [Request.new]
  · exact fun hne => absurd rfl hne
  · intro
    show 0 < 3
    decide
  · intro p i hi
    cases hi
  · intro hr
    cases hr
  · intro i hi
    cases hi
  · intro r hr
    cases hr

/-- While there are references, nothing is returned. -/
theorem notYet_of_refs (h : q.Good c) (href : 0 < q.refs) : q.returning = .notYet := by
  rcases hr : q.returning with _ | ⟨p, i⟩ | _
  · rfl
  · have := (h.running p i hr).1
    omega
  · have := (h.returned hr).1
    omega

theorem returnNext (h : q.Good c) {p : Party} {i : ℕ} (hr : q.returning = .at p i) : (q.returnNext p i).Good c := by
  obtain ⟨hrefs, hframes, hsub, hconv⟩ := h.running p i hr
  unfold Request.returnNext
  split
  · rename_i params hparams
    have hlt : i < q.frames.length := by
      have := (List.getElem?_eq_some_iff.mp hparams).1
      have := h.lengths
      omega
    refine { h with
      lengths := ⟨h.lengths.1, by simp [h.lengths.2]⟩
      notYet := by simp
      running := fun p' i' heq => ?_
      returned := by simp }
    obtain ⟨rfl, rfl⟩ : p = p' ∧ i + 1 = i' := by simpa using heq
    refine ⟨hrefs, fun j hj => ?_, hsub, hconv⟩
    by_cases hji : j = i
    · rw [hji, List.getElem?_set_self hlt, hparams]
    · rw [List.getElem?_set_ne (Ne.symm hji)]
      exact hframes j (by omega)
  · rename_i hnone
    have hall : q.frames = q.surface := by
      have hle : q.surface.length ≤ i := List.getElem?_eq_none_iff.mp hnone
      refine List.ext_getElem? fun j => ?_
      by_cases hj : j < i
      · exact hframes j hj
      · have := h.lengths
        rw [List.getElem?_eq_none (by omega), List.getElem?_eq_none (by omega)]
    exact { h with
      notYet := by simp
      running := by simp
      returned := fun _ => ⟨hrefs, hall⟩ }

/-- A party drops its reference: with the last one `ReturnScaleParams` begins. -/
theorem drop (h : q.Good c) (hnot : q.returning = .notYet) {p : Party} {submitter : Submitting} {context : InContext}
    (hsub : p = .submitter → submitter = .dropped ∨ 0 < submitter.refs + context.refs)
    (hconv : p = .converter → context = .dropped)
    (hcontext : context = q.context ∨ q.context ≠ .waiting ∧ ∀ i, q.output ≠ .at i) :
    (Request.drop { q with submitter := submitter, context := context } p).Good c := by
  have hsurface : context ≠ .waiting → q.surface = q.crops.map c.scaleParams := by
    intro hne
    rcases hcontext with rfl | ⟨hne', -⟩
    · exact h.surface hne
    · exact h.surface hne'
  have hattaching : ∀ i, q.output = .at i → ∃ ok, context = .completed ok := by
    intro i hi
    rcases hcontext with rfl | ⟨-, hw⟩
    · exact h.attaching i hi
    · exact absurd hi (hw i)
  unfold Request.drop
  split
  · rename_i hrefs
    have hzero : submitter.refs + context.refs = 0 := hrefs
    refine { h with
      surface := hsurface
      attaching := hattaching
      notYet := by simp
      running := fun p' i' heq => ?_
      returned := by simp }
    obtain ⟨rfl, rfl⟩ : p = p' ∧ 0 = i' := by simpa using heq
    refine ⟨hrefs, fun j hj => absurd hj (Nat.not_lt_zero j), fun hp => ?_, hconv⟩
    exact (hsub hp).resolve_right (by omega)
  · rename_i hrefs
    exact { h with
      surface := hsurface
      attaching := hattaching
      notYet := fun _ => Nat.pos_of_ne_zero hrefs
      running := fun p' i' heq => absurd (hnot.symm.trans heq) (by simp)
      returned := fun heq => absurd (hnot.symm.trans heq) (by simp) }

theorem submitterGoesOn (h : q.Good c) (hs : q.submitterGoesOn = some q') : q'.Good c := by
  unfold Request.submitterGoesOn at hs
  split at hs
  · rename_i i hr
    obtain rfl := Option.some.inj hs
    exact h.returnNext hr
  · rename_i hnot
    split at hs
    · rename_i hsub
      obtain rfl := Option.some.inj hs
      have hr := h.notYet_of_refs (refs_pos_left (by rw [hsub]; decide))
      exact { h with
        notYet := fun _ => refs_pos_left (q := { q with submitter := .queued }) Nat.zero_lt_two
        running := fun p i heq => absurd (hr.symm.trans heq) (by simp)
        returned := fun heq => absurd (hr.symm.trans heq) (by simp) }
    · rename_i hsub
      obtain rfl := Option.some.inj hs
      have hr := h.notYet_of_refs (refs_pos_left (by rw [hsub]; decide))
      exact h.drop hr (fun _ => .inr (Nat.add_pos_left (by decide) _)) (by simp) (.inl rfl)
    · rename_i hsub
      obtain rfl := Option.some.inj hs
      have hr := h.notYet_of_refs (refs_pos_left (by rw [hsub]; decide))
      exact h.drop hr (fun _ => .inl rfl) (by simp) (.inl rfl)
    · rename_i hsub
      obtain rfl := Option.some.inj hs
      have href : q.refs = refs { q with submitter := .through } := by simp [refs, hsub, Submitting.refs]
      exact { h with
        notYet := fun heq => href ▸ h.notYet heq
        running := fun p i heq => by
          obtain ⟨h0, hframes, -, hconv⟩ := h.running p i heq
          refine ⟨href ▸ h0, hframes, fun hp => ?_, hconv⟩
          exact absurd (hp ▸ heq) (hnot i)
        returned := fun heq => href ▸ h.returned heq }
    · cases hs

/-- The output thread waits while the converter is not through. -/
theorem waiting_of_context (h : q.Good c) (hno : ∀ ok, q.context ≠ .completed ok) (i : ℕ) : q.output ≠ .at i := by
  intro hi
  obtain ⟨ok, hok⟩ := h.attaching i hi
  exact hno ok hok

theorem converterGoesOn (h : q.Good c) (hs : q.converterGoesOn c = some q') : q'.Good c := by
  unfold Request.converterGoesOn at hs
  split at hs
  · rename_i i hr
    obtain rfl := Option.some.inj hs
    exact h.returnNext hr
  · rename_i hnot
    split at hs
    · rename_i hcontext
      obtain rfl := Option.some.inj hs
      have hr := h.notYet_of_refs (refs_pos_right (by rw [hcontext]; decide))
      have hidle := h.waiting_of_context (by simp [hcontext])
      exact { h with
        lengths := ⟨by simp, h.lengths.2⟩
        surface := fun _ => rfl
        notYet := fun _ => refs_pos_right (q := { q with context := .converted }) Nat.zero_lt_one
        running := fun p i heq => absurd (hr.symm.trans heq) (by simp)
        returned := fun heq => absurd (hr.symm.trans heq) (by simp)
        attaching := fun i hi => absurd hi (hidle i) }
    · rename_i hcontext
      obtain rfl := Option.some.inj hs
      have hr := h.notYet_of_refs (refs_pos_right (by rw [hcontext]; decide))
      have hidle := h.waiting_of_context (by simp [hcontext])
      exact h.drop hr (by simp) (fun _ => rfl) (.inr ⟨by simp [hcontext], hidle⟩)
    · rename_i hcontext
      obtain rfl := Option.some.inj hs
      have href : q.refs = refs { q with context := .inBackend } := by simp [refs, hcontext, InContext.refs]
      have hidle := h.waiting_of_context (by simp [hcontext])
      exact { h with
        surface := fun _ => h.surface (by simp [hcontext])
        notYet := fun heq => href ▸ h.notYet heq
        running := fun p i heq => by
          obtain ⟨h0, hframes, hsub, -⟩ := h.running p i heq
          refine ⟨href ▸ h0, hframes, hsub, fun hp => ?_⟩
          exact absurd (hp ▸ heq) (hnot i)
        returned := fun heq => href ▸ h.returned heq
        attaching := fun i hi => absurd hi (hidle i) }
    · cases hs

theorem complete (h : q.Good c) {ok : Bool} (hs : q.complete ok = some q') : q'.Good c := by
  unfold Request.complete at hs
  split at hs
  · rename_i hcontext
    obtain rfl := Option.some.inj hs
    have href : q.refs = refs { q with context := .completed ok } := by simp [refs, hcontext, InContext.refs]
    exact { h with
      surface := fun _ => h.surface (by simp [hcontext])
      notYet := fun heq => href ▸ h.notYet heq
      running := fun p i heq => by
        obtain ⟨h0, hframes, hsub, hconv⟩ := h.running p i heq
        refine ⟨href ▸ h0, hframes, hsub, fun hp => ?_⟩
        exact absurd ((hconv hp).symm.trans hcontext) (by simp)
      returned := fun heq => href ▸ h.returned heq
      attaching := fun i hi => ⟨ok, rfl⟩ }
  · cases hs

/-- The output thread goes on when the submitting thread is through. -/
theorem outputGoesOn (h : q.Good c) (hthrough : q.submitter = .through) (hs : q.outputGoesOn = some q') : q'.Good c := by
  unfold Request.outputGoesOn at hs
  split at hs
  · split at hs
    · rename_i ok hcontext
      obtain rfl := Option.some.inj hs
      exact { h with attaching := fun i _ => ⟨ok, hcontext⟩ }
    · cases hs
  · rename_i i hi
    obtain ⟨ok, hcontext⟩ := h.attaching i hi
    -- nobody holds the buffer, and neither thread is in its deleter
    have hrefs : q.refs = 0 := by simp [refs, hthrough, hcontext, Submitting.refs, InContext.refs]
    have hreturned : q.returning = .returned := by
      rcases hr : q.returning with _ | ⟨p, j⟩ | _
      · have := h.notYet hr
        omega
      · obtain ⟨-, -, hsub, hconv⟩ := h.running p j hr
        rcases p with _ | _
        · exact absurd ((hsub rfl).symm.trans hthrough) (by simp)
        · exact absurd ((hconv rfl).symm.trans hcontext) (by simp)
      · rfl
    split at hs
    · rename_i params hparams
      obtain rfl := Option.some.inj hs
      refine { h with
        attaching := fun _ _ => ⟨ok, hcontext⟩
        own := fun r hr => ?_ }
      rcases List.mem_append.mp hr with hr | hr
      · exact h.own r hr
      · rw [List.mem_singleton.mp hr]
        have hframes : q.frames = q.crops.map c.scaleParams :=
          (h.returned hreturned).2.trans (h.surface (by simp [hcontext]))
        rw [hframes, List.getElem?_map] at hparams
        obtain ⟨crop, hcrop, rfl⟩ := Option.map_eq_some_iff.mp hparams
        have hfits := h.fits crop (List.mem_of_getElem? hcrop)
        exact ⟨by simpa using hreturned, crop, hcrop, rfl, hfits.not_isZero⟩
    · obtain rfl := Option.some.inj hs
      exact { h with attaching := by simp }
  · cases hs

end Good
end Request

/-! ### The runs -/

namespace Scaling

variable {c : Converter} {s s' : Scaling}

/-- Every request is as it should be. -/
def Good (c : Converter) (s : Scaling) : Prop := ∀ q ∈ s.requests, q.Good c

theorem Good.goOn (h : s.Good c) {r : ℕ} {f : Request → Option Request} {q' : Request}
    (hf : ∀ q, s.requests[r]? = some q → q.Good c → f q = some q' → q'.Good c) (hs : s.goOn r f = some (q', s')) :
    s'.Good c := by
  obtain ⟨q, hq, hs⟩ := Option.bind_eq_some_iff.mp hs
  obtain ⟨q'', hf', heq⟩ := Option.map_eq_some_iff.mp hs
  obtain ⟨rfl, rfl⟩ := Prod.mk.inj heq
  intro t ht
  rcases List.mem_or_eq_of_mem_set ht with ht | rfl
  · exact h t ht
  · exact hf q hq (h q (List.mem_of_getElem? hq)) hf'

theorem good_step (h : s.Good c) {a : Action} (hok : s.InTurn c a) (hs : s.step c a = some s') : s'.Good c := by
  rcases a with crops | _ | _ | _ | ⟨r, ok⟩ | _ | _
  · simp only [step] at hs
    split at hs
    · obtain rfl := Option.some.inj hs
      intro q hq
      rcases List.mem_append.mp hq with hq | hq
      · exact h q hq
      · rw [List.mem_singleton.mp hq]
        exact Request.Good.new hok
    · cases hs
  · obtain ⟨r, hr, hs⟩ := Option.bind_eq_some_iff.mp hs
    obtain ⟨⟨q, t⟩, ht, hs⟩ := Option.map_eq_some_iff.mp hs
    have hgood := h.goOn (fun _ _ hq hf => hq.submitterGoesOn hf) ht
    have hrequests : s'.requests = t.requests := by
      rw [← hs]
      show Scaling.requests (match q.submitter with | .queued => _ | .through => _ | _ => _) = _
      split <;> rfl
    exact fun q hq => hgood q (hrequests ▸ hq)
  · obtain ⟨t, ht, rfl⟩ := Option.map_eq_some_iff.mp hs
    exact h
  · obtain ⟨r, hr, hs⟩ := Option.bind_eq_some_iff.mp hs
    obtain ⟨⟨q, t⟩, ht, hs⟩ := Option.bind_eq_some_iff.mp hs
    have hgood := h.goOn (fun _ _ hq hf => hq.converterGoesOn hf) ht
    simp only at hs
    split at hs
    · obtain ⟨u, hu, rfl⟩ := Option.map_eq_some_iff.mp hs
      exact hgood
    · obtain rfl := Option.some.inj hs
      exact hgood
  · obtain ⟨⟨q, t⟩, ht, rfl⟩ := Option.map_eq_some_iff.mp hs
    exact h.goOn (fun _ _ hq hf => hq.complete hf) ht
  · obtain ⟨t, ht, rfl⟩ := Option.map_eq_some_iff.mp hs
    exact h
  · obtain ⟨r, hr, hs⟩ := Option.bind_eq_some_iff.mp hs
    obtain ⟨⟨q, t⟩, ht, hs⟩ := Option.bind_eq_some_iff.mp hs
    have hgood := h.goOn (fun q hq hgood hf => hgood.outputGoesOn (hok r hr q hq) hf) ht
    simp only at hs
    split at hs
    · obtain ⟨u, hu, rfl⟩ := Option.map_eq_some_iff.mp hs
      exact hgood
    · obtain rfl := Option.some.inj hs
      exact hgood

/-- In every run in which the output thread attaches detections only when the
submitting thread is through with the request, they are scaled with its own ratios. -/
theorem scalesOwn_run (c : Converter) {s : Scaling} (h : Reach (step c) (InTurn c) Started s) : s.ScalesOwn c := by
  have hgood : s.Good c := by
    refine h.invariant (fun t ht => ?_) fun _ _ _ hI hok hs => good_step hI hok hs
    rw [ht]
    intro q hq
    cases hq
  exact fun q hq => (hgood q hq).own

instance (s : Scaling) (a : Action) : Decidable (s.InTurn c a) :=
  match a with
  | .submit crops => inferInstanceAs (Decidable (∀ crop ∈ crops, c.Fits crop))
  | .outputGoesOn => inferInstanceAs (Decidable (∀ r ∈ s.output.items.running, ∀ q ∈ s.requests[r]?, q.submitter = .through))
  | .submitterGoesOn | .popConverter | .converterGoesOn | .complete _ _ | .popOutput => inferInstanceAs (Decidable True)

/-- A network of 300 by 300, frames of 1920 by 1080. -/
def square : Converter := { dstWidth := 300, dstHeight := 300, maintainAspectRatio := true, symmetricPadding := false }

def fullFrame : Rect := ⟨0, 0, 1920, 1080⟩

/-- The submitting thread goes on to its next frame before the request ends. -/
def inTurn : List Action :=
  [.submit [fullFrame], .popConverter, .converterGoesOn, .converterGoesOn, .submitterGoesOn, .submitterGoesOn,
   .submitterGoesOn, .submitterGoesOn, .submitterGoesOn, .submitterGoesOn, .converterGoesOn, .complete 0 true,
   .popOutput, .outputGoesOn, .outputGoesOn]

theorem scalesOwn_run_inTurn : ∃ s, Reach (step square) (InTurn square) Started s ∧
    s.requests.map (·.reads) = [[⟨0, { scaleRatioX := ⟨300, 1920⟩, scaleRatioY := ⟨168, 1080⟩ }, true⟩]] ∧
    s.ScalesOwn square := by
  have hinit : Started {} := rfl
  have hreach : Reach (step square) (InTurn square) Started _ := Reach.get_exec (l := inTurn) hinit (by decide +kernel)
  exact ⟨_, hreach, by decide +kernel, scalesOwn_run square hreach⟩

/-- The output thread attaches while the submitting thread is still in `batchInference`. -/
def overtaking : List Action :=
  [.submit [fullFrame], .popConverter, .converterGoesOn, .converterGoesOn, .converterGoesOn, .complete 0 true,
   .submitterGoesOn, .popOutput, .outputGoesOn, .outputGoesOn]

theorem zeroRatio : ∃ s, Reach (step square) anyStep Started s ∧
    s.requests.map (·.reads) = [[⟨0, {}, false⟩]] ∧ ¬ s.ScalesOwn square := by
  have hinit : Started {} := rfl
  have hreach : Reach (step square) anyStep Started _ := Reach.get_exec (l := overtaking) hinit (by decide +kernel)
  refine ⟨_, hreach, by decide +kernel, fun h => ?_⟩
  obtain ⟨hreturned, -⟩ := h _ (List.mem_singleton.mpr rfl) _ (List.mem_singleton.mpr rfl)
  cases hreturned

end Scaling
end InferServer
end DeepStream
