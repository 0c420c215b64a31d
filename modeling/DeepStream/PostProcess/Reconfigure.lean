/-
# Reconfiguring gst-nvdspostprocess while it runs

The output thread works on a buffer without the lock: frame by frame it looks at the
process mode, and for each output tensor of its element it lets the post-processor
parse the tensor and attaches what is found, with the parameters of the classes. A
call of `SetConfigFile` changes all of this under the lock. When it leaves early the
lock is never given up, and then no step that needs it is possible any more.

The steps are those of `OutputThread`, a step for each frame and each tensor that the
output thread works on, and the calls of `SetConfigFile`. What a buffer holds and what
a parse function finds are parameters.
-/
import DeepStream.PostProcess.Config
import DeepStream.PostProcess.OutputThread

namespace DeepStream
namespace PostProcess

/-! ### Buffers -/

/-- The output of a network, attached to a frame or an object. -/
structure TensorMeta where
  uniqueId : ℕ
  outputLayers : ℕ
  deriving DecidableEq, Repr

structure Frame where
  frameTensors : List TensorMeta
  objects : List (List TensorMeta)
  deriving DecidableEq, Repr

/-- What is left to do with a buffer. -/
inductive Task where
  | frame (f : Frame)
  | tensor (m : TensorMeta)
  deriving DecidableEq, Repr

/-- The class indices of the objects that are attached for a tensor: `preClusteringThreshold`
drops those of classes that the post-processor does not know. -/
def Algorithm.classIndices (parse : ModelPostProcessor → TensorMeta → List ℕ) (a : Algorithm) (m : TensorMeta) : List ℕ :=
  match a.postprocessor with
  | none => []
  | some pp =>
    if m.uniqueId = a.gieUniqueId ∧ pp.networkType.Detects then (parse pp m).filter (· < pp.numDetectedClasses) else []

/-- The output thread's next tasks at a frame. -/
def Algorithm.tasks (a : Algorithm) (f : Frame) : List Task :=
  if a.processMode = 1 then f.frameTensors.map .tensor
  else if a.processMode = 2 then f.objects.flatten.map .tensor
  else []

/-! ### The element -/

/-- A call that has returned. -/
structure ConfigCall where
  before : Algorithm
  result : Bool
  after : Algorithm
  deriving DecidableEq, Repr

/-- `used` logs the configurations that the output thread has read for its buffer, and
`processed` those for the buffers before. -/
structure Element where
  flow : State := {}
  lockHeld : Bool := false
  terminated : Bool := false
  config : Algorithm
  todo : List Task := []
  used : List Algorithm := []
  processed : List (ℕ × List Algorithm) := []
  calls : List ConfigCall := []
  deriving DecidableEq, Repr

namespace Element

inductive Action where
  | flow (a : PostProcess.Action)
  /-- The output thread goes on with its buffer. -/
  | work
  | setConfigFile (file : ConfigFile)
  deriving DecidableEq, Repr

/-- The sections that begin by taking the lock. -/
def TakesLock : PostProcess.Action → Prop
  | .processBuffer _ mapped => mapped = true
  | .sinkEvent type => type = .eos
  | .outputLocked | .destroy | .sawEmpty => True
  | .sawStopped | .pushed | .spuriousWakeup | .joined => False

instance : DecidablePred TakesLock
  | .processBuffer _ mapped => inferInstanceAs (Decidable (mapped = true))
  | .sinkEvent type => inferInstanceAs (Decidable (type = .eos))
  | .outputLocked | .destroy | .sawEmpty => inferInstanceAs (Decidable True)
  | .sawStopped | .pushed | .spuriousWakeup | .joined => inferInstanceAs (Decidable False)

/-- A file at which `SetConfigFile` does not get to the lock. -/
def NoLock : ConfigFile → Prop
  | .missing | .malformed => True
  | .document groups => groups = []

instance : DecidablePred NoLock
  | .missing | .malformed => inferInstanceAs (Decidable True)
  | .document groups => inferInstanceAs (Decidable (groups = []))

variable (env : Environment) (content : ℕ → List Frame)

/-- The output thread has a new buffer, or is through with one. -/
def follow (e : Element) (flow : State) : PostProcess.Action → Element
  | .outputLocked => { e with flow := flow, todo := (flow.processQ.running.elim [] content).map .frame, used := [] }
  | .pushed =>
    { e with flow := flow, used := []
             processed := e.processed ++ e.flow.processQ.running.toList.map fun inbuf => (inbuf, e.used) }
  | _ => { e with flow := flow }

def step (e : Element) : Action → Option Element
  | .flow a =>
    if e.terminated = true ∨ (TakesLock a ∧ e.lockHeld = true) ∨ (a = .pushed ∧ e.todo ≠ []) then none
    else (PostProcess.step e.flow a).map fun flow => e.follow content flow a
  | .work =>
    if e.terminated = true ∨ e.flow.output ≠ .working then none
    else
      match e.todo with
      | [] => none
      | .frame f :: todo => some { e with todo := e.config.tasks f ++ todo, used := e.used ++ [e.config] }
      | .tensor _ :: todo => some { e with todo := todo, used := e.used ++ [e.config] }
  | .setConfigFile file =>
    if e.terminated = true ∨ (¬ NoLock file ∧ e.lockHeld = true) then none
    else
      match setConfigFile env e.config file with
      | (.returned result unlocked, config) =>
        some { e with config := config, lockHeld := e.lockHeld || !unlocked, calls := e.calls ++ [⟨e.config, result, config⟩] }
      | (.crashed, config) => some { e with config := config, terminated := true }

/-- With the configuration before any call; there is no post-processor. -/
def Started (initial : Algorithm) (e : Element) : Prop := initial.postprocessor = none ∧ e = { config := initial }

/-- A configuration that a call has set up, or the first one. -/
def Established (initial : Algorithm) (e : Element) (c : Algorithm) : Prop :=
  c = initial ∨ ∃ call ∈ e.calls, call.result = true ∧ call.after = c

/-- The buffers with the configurations that were read for them. -/
def readings (e : Element) : List (List Algorithm) := e.used :: e.processed.map (·.2)

end Element

/-! ### The property -/

open Element

variable (env : Environment) (content : ℕ → List Frame) (parse : ModelPostProcessor → TensorMeta → List ℕ)
  (initial : Algorithm)

/-- What the property says of a state. -/
structure ConfigSafe (e : Element) : Prop where
  lockFree : e.lockHeld = false ∧ e.terminated = false
  /-- A buffer is processed with one configuration, whose parts belong together. -/
  oneConfig : ∀ used ∈ e.readings, ∃ c, Established initial e c ∧ c.Coherent env ∧ ∀ c' ∈ used, c' = c
  /-- The parameters have an entry for each class that is used. -/
  classes : ∀ used ∈ e.readings, ∀ c ∈ used, ∀ m, ∀ i ∈ c.classIndices parse m,
    i < (c.initParams.perClassDetectionParams.getD []).length
  unchanged : ∀ call ∈ e.calls, call.result = false → call.after = call.before

/-- A file is valid, or nothing is changed at it; a valid one does not come in the middle
of a buffer. -/
def Element.StepOk (e : Element) : Element.Action → Prop
  | .setConfigFile file => file.Rejected ∨
      ((e.used = [] ∨ e.todo = []) ∧ ∃ groups entries, file = .document groups ∧ Accepted env e.config groups entries)
  | _ => True

/-! ### The invariant -/

namespace Element

variable {env content parse initial} {e e' : Element}

/-- The configurations read for a buffer are one that was set up. -/
def One (env : Environment) (initial : Algorithm) (e : Element) (used : List Algorithm) : Prop :=
  ∃ c, Established initial e c ∧ c.Coherent env ∧ ∀ c' ∈ used, c' = c

structure Inv (env : Environment) (initial : Algorithm) (e : Element) : Prop where
  lockFree : e.lockHeld = false ∧ e.terminated = false
  config : Established initial e e.config ∧ e.config.Coherent env
  one : ∀ used ∈ e.readings, One env initial e used
  /-- While there is something left to do, the configuration is the one that was read. -/
  steady : e.todo ≠ [] → ∀ c ∈ e.used, c = e.config
  unchanged : ∀ call ∈ e.calls, call.result = false → call.after = call.before

/-- With the calls of before and more, what was set up was set up. -/
theorem One.mono {used : List Algorithm} (h : One env initial e used) {calls : List ConfigCall}
    (hcalls : e'.calls = e.calls ++ calls) : One env initial e' used := by
  obtain ⟨c, hc, hcoherent, hall⟩ := h
  refine ⟨c, hc.imp_right ?_, hcoherent, hall⟩
  rintro ⟨call, hcall, hres⟩
  exact ⟨call, by rw [hcalls]; exact List.mem_append_left _ hcall, hres⟩

theorem Inv.nothing (h : e.Inv env initial) : One env initial e [] :=
  ⟨e.config, h.config.1, h.config.2, fun _ hc => (List.not_mem_nil hc).elim⟩

theorem Inv.started (hinit : Started initial e) : e.Inv env initial := by
  obtain ⟨hnone, rfl⟩ := hinit
  have hcoherent : initial.Coherent env := by
    constructor
    · intro pp hpp
      rw [hnone] at hpp
      cases hpp
    · intro pp hpp
      rw [hnone] at hpp
      cases hpp
  refine ⟨⟨rfl, rfl⟩, ⟨.inl rfl, hcoherent⟩, ?_, fun hne => absurd rfl hne, fun call hcall => by cases hcall⟩
  intro used hused
  obtain rfl : used = [] := by simpa [readings] using hused
  exact ⟨initial, .inl rfl, hcoherent, fun _ hc => (List.not_mem_nil hc).elim⟩

/-- The output thread goes over to another buffer. -/
theorem Inv.follow (h : e.Inv env initial) (flow : State) (a : PostProcess.Action) (htodo : a = .pushed → e.todo = []) :
    (e.follow content flow a).Inv env initial := by
  have hcalls : ∀ a, (e.follow content flow a).calls = e.calls ++ [] := by
    intro a
    rw [List.append_nil]
    cases a <;> rfl
  have hone : ∀ {used}, used ∈ e.readings → One env initial (e.follow content flow a) used :=
    fun hused => (h.one _ hused).mono (hcalls a)
  have hnothing : One env initial (e.follow content flow a) [] := h.nothing.mono (hcalls a)
  cases a with
  | outputLocked =>
    refine ⟨h.lockFree, h.config, fun used hused => ?_, fun _ c hc => (List.not_mem_nil hc).elim, h.unchanged⟩
    rcases List.mem_cons.mp hused with rfl | hused
    · exact hnothing
    · exact hone (List.mem_cons_of_mem _ hused)
  | pushed =>
    refine ⟨h.lockFree, h.config, fun used hused => ?_, fun _ c hc => (List.not_mem_nil hc).elim, h.unchanged⟩
    rcases List.mem_cons.mp hused with rfl | hused
    · exact hnothing
    · obtain ⟨p, hp, rfl⟩ := List.mem_map.mp hused
      rcases List.mem_append.mp hp with hp | hp
      · exact hone (List.mem_cons_of_mem _ (List.mem_map.mpr ⟨p, hp, rfl⟩))
      · obtain ⟨inbuf, -, rfl⟩ := List.mem_map.mp hp
        exact hone List.mem_cons_self
  | processBuffer | sinkEvent | sawStopped | spuriousWakeup | destroy | sawEmpty | joined =>
    exact ⟨h.lockFree, h.config, fun used hused => hone hused, h.steady, h.unchanged⟩

/-- The output thread reads the configuration. -/
theorem Inv.reads (h : e.Inv env initial) (hne : e.todo ≠ []) (todo : List Task) :
    Inv env initial { e with todo := todo, used := e.used ++ [e.config] } := by
  have hall : ∀ c ∈ e.used ++ [e.config], c = e.config := by
    intro c hc
    rcases List.mem_append.mp hc with hc | hc
    · exact h.steady hne c hc
    · exact List.mem_singleton.mp hc
  refine ⟨h.lockFree, h.config, fun used hused => ?_, fun _ => hall, h.unchanged⟩
  rcases List.mem_cons.mp hused with rfl | hused
  · exact ⟨e.config, h.config.1, h.config.2, hall⟩
  · exact h.one used (List.mem_cons_of_mem _ hused)

/-- A call that leaves the lock free. -/
theorem Inv.called (h : e.Inv env initial) {result : Bool} {config : Algorithm}
    (hres : result = true ∧ config.Coherent env ∧ (e.used = [] ∨ e.todo = []) ∨ result = false ∧ config = e.config) :
    Inv env initial { e with config := config, lockHeld := e.lockHeld || !true
                             calls := e.calls ++ [⟨e.config, result, config⟩] } := by
  have hone : ∀ used ∈ e.readings, One env initial
      { e with config := config, lockHeld := e.lockHeld || !true, calls := e.calls ++ [⟨e.config, result, config⟩] } used :=
    fun used hused => (h.one used hused).mono rfl
  constructor
  · exact ⟨by rw [h.lockFree.1]; rfl, h.lockFree.2⟩
  · rcases hres with ⟨rfl, hcoherent, -⟩ | ⟨rfl, rfl⟩
    · exact ⟨.inr ⟨_, List.mem_append_right _ List.mem_cons_self, rfl, rfl⟩, hcoherent⟩
    · refine ⟨h.config.1.imp_right ?_, h.config.2⟩
      rintro ⟨call, hcall, hok⟩
      exact ⟨call, List.mem_append_left _ hcall, hok⟩
  · exact hone
  · intro hne c hc
    rcases hres with ⟨-, -, hbetween⟩ | ⟨-, rfl⟩
    · have hnil : e.used = [] := hbetween.resolve_right hne
      have hc' : c ∈ e.used := hc
      rw [hnil] at hc'
      exact (List.not_mem_nil hc').elim
    · exact h.steady hne c hc
  · intro call hcall hfalse
    rcases List.mem_append.mp hcall with hcall | hcall
    · exact h.unchanged call hcall hfalse
    · obtain rfl := List.mem_singleton.mp hcall
      rcases hres with ⟨rfl, -⟩ | ⟨-, rfl⟩
      · cases hfalse
      · rfl

theorem Inv.step (h : e.Inv env initial) {a : Element.Action} (hok : StepOk env e a) (hs : step env content e a = some e') :
    e'.Inv env initial := by
  unfold Element.step at hs
  split at hs
  · rename_i a
    split at hs
    · cases hs
    · rename_i hc
      obtain ⟨flow, -, rfl⟩ := Option.map_eq_some_iff.mp hs
      refine h.follow flow a fun hpushed => ?_
      by_contra hne
      exact hc (.inr (.inr ⟨hpushed, hne⟩))
  · split at hs
    · cases hs
    · split at hs
      · cases hs
      · rename_i f todo htodo
        obtain rfl := Option.some.inj hs
        exact h.reads (by simp [htodo]) _
      · rename_i m todo htodo
        obtain rfl := Option.some.inj hs
        exact h.reads (by simp [htodo]) _
  · rename_i file
    split at hs
    · cases hs
    · rcases hok with hrejected | ⟨hbetween, groups, entries, rfl, haccepted⟩
      · rw [setConfigFile_rejected hrejected] at hs
        obtain rfl := Option.some.inj hs
        exact h.called (.inr ⟨rfl, rfl⟩)
      · obtain ⟨config, hconfig, hcoherent⟩ := setConfigFile_accepted haccepted
        rw [hconfig] at hs
        obtain rfl := Option.some.inj hs
        exact h.called (.inl ⟨rfl, hcoherent, hbetween⟩)

end Element

/-! ### The property of runs -/

variable {env content parse initial}

theorem Algorithm.Coherent.lt_of_mem {c : Algorithm} (h : c.Coherent env) {m : TensorMeta} {i : ℕ}
    (hi : i ∈ c.classIndices parse m) : i < (c.initParams.perClassDetectionParams.getD []).length := by
  unfold Algorithm.classIndices at hi
  split at hi
  · exact (List.not_mem_nil hi).elim
  · rename_i pp hpp
    split at hi
    · rename_i hdetects
      have hlt : i < pp.numDetectedClasses := by simpa using (List.mem_filter.mp hi).2
      exact Nat.lt_of_lt_of_le hlt (h.classes pp hpp hdetects.2)
    · exact (List.not_mem_nil hi).elim

theorem Element.Inv.configSafe {e : Element} (h : e.Inv env initial) : ConfigSafe env parse initial e := by
  refine ⟨h.lockFree, h.one, fun used hused c hc m i hi => ?_, h.unchanged⟩
  obtain ⟨c', -, hcoherent, hall⟩ := h.one used hused
  obtain rfl := hall c hc
  exact hcoherent.lt_of_mem hi

/-- The lock is free and every buffer is processed with one configuration in every run in
which files are valid or change nothing, and valid ones do not come in the middle of a buffer. -/
theorem configSafe_run {e : Element} (h : Reach (Element.step env content) (Element.StepOk env) (Element.Started initial) e) :
    ConfigSafe env parse initial e := by
  have hinv : e.Inv env initial :=
    Reach.invariant (I := Element.Inv env initial) (fun _ hi => .started hi) (fun _ _ _ hi hok hs => hi.step hok hs) h
  exact hinv.configSafe

/-! ### A detector, and a file that is not valid -/

/-- Conversions of single digits. -/
def digits (v : Text) : Option ℤ :=
  if v = ['0'] then some 0 else if v = ['1'] then some 1 else if v = ['2'] then some 2 else if v = ['7'] then some 7 else none

def digitsOnly : Environment where
  asInt := digits
  asFloat := fun v => (digits v).map fun n => (n : ℚ)
  stoi := digits
  stod := fun v => (digits v).map fun n => (n : ℚ)
  readLabels := fun _ => none
  withOpencv := false
  dbscanCreated := true

/-- A detector of two classes; the second is filtered out and has a parameter of its own. -/
def twoClasses : List Group :=
  [.property [(.networkType, ['0']), (.numDetectedClasses, ['2']), (.gieUniqueId, ['1']), (.filterOutClassIds, ['1'])],
    .classAttrs ['1'] [(.topk, ['2'])]]

/-- One frame with the output of the detector. -/
def oneTensor (_ : ℕ) : List Frame := [⟨[⟨1, 2⟩], []⟩]

/-- A step that is not a call of `SetConfigFile`. -/
def NoConfig (_ : Element) : Element.Action → Prop
  | .setConfigFile _ => False
  | _ => True

instance : ∀ e a, Decidable (NoConfig e a)
  | _, .setConfigFile _ => inferInstanceAs (Decidable False)
  | _, .flow _ | _, .work => inferInstanceAs (Decidable True)

theorem twoClasses_accepted : Accepted digitsOnly {} twoClasses
    [(.networkType, ['0']), (.numDetectedClasses, ['2']), (.gieUniqueId, ['1']), (.filterOutClassIds, ['1'])] := by
  constructor
  · rfl
  · intro e he
    simp only [List.mem_cons, List.not_mem_nil, or_false] at he
    rcases he with rfl | rfl | rfl | rfl
    · rfl
    · rfl
    · rfl
    · show ∀ part ∈ splitString ['1'], (digits part).isSome = true
      decide
  · intro _
    constructor
    · intro e he
      cases he
    · intro suffix entries hg
      obtain ⟨rfl, rfl⟩ : suffix = ['1'] ∧ entries = [(.topk, ['2'])] := by simpa [twoClasses] using hg
      exact ⟨1, rfl, by decide, by decide +kernel⟩
    · intro suffix entries hg e he
      obtain ⟨rfl, rfl⟩ : suffix = ['1'] ∧ entries = [(.topk, ['2'])] := by simpa [twoClasses] using hg
      obtain rfl : e = (.topk, ['2']) := by simpa [twoClasses, classAttrsEntries] using he
      rfl
  · exact ⟨.inl rfl, fun _ => rfl⟩

theorem stepOk_of_noConfig (e : Element) (a : Element.Action) (h : NoConfig e a) : Element.StepOk digitsOnly e a := by
  rcases a with _ | _ | _
  · trivial
  · trivial
  · exact h.elim

/-- The element with the detector. -/
def configured : Element :=
  { config := (setConfigFile digitsOnly {} (.document twoClasses)).2
    calls := [⟨{}, true, (setConfigFile digitsOnly {} (.document twoClasses)).2⟩] }

/-- A buffer goes through the element. -/
def oneBuffer : List Element.Action :=
  [.flow (.processBuffer 7 true), .flow .outputLocked, .work, .work, .flow .pushed]

theorem configSafe_run_twoClasses : ∃ e, Reach (Element.step digitsOnly oneTensor) (Element.StepOk digitsOnly)
    (Element.Started {}) e ∧ e.processed.length = 1 ∧ ConfigSafe digitsOnly (fun _ _ => [0, 1, 5]) {} e := by
  have hinit : Element.Started {} { config := {} } := ⟨rfl, rfl⟩
  have hok : Element.StepOk digitsOnly { config := {} } (.setConfigFile (.document twoClasses)) :=
    .inr ⟨.inl rfl, twoClasses, _, rfl, twoClasses_accepted⟩
  have hstep : Element.step digitsOnly oneTensor { config := {} } (.setConfigFile (.document twoClasses)) =
      some configured := by decide +kernel
  have hrest : Reach (Element.step digitsOnly oneTensor) NoConfig (· = configured)
      ((exec (Element.step digitsOnly oneTensor) NoConfig configured oneBuffer).get (by decide +kernel)) :=
    Reach.of_exec oneBuffer (.init rfl) (Option.some_get _).symm
  have hreach := (Reach.step (.init hinit) hok hstep).trans (hrest.mono stepOk_of_noConfig fun _ h => h)
  exact ⟨_, hreach, by decide +kernel, configSafe_run hreach⟩

/-- At a network type that there is not, `SetConfigFile` returns with the lock. -/
theorem lockKept : ∃ e, Reach (Element.step digitsOnly oneTensor) anyStep (Element.Started {}) e ∧
    ¬ ConfigSafe digitsOnly (fun _ _ => []) {} e := by
  have hinit : Element.Started {} { config := {} } := ⟨rfl, rfl⟩
  have hreach : Reach (Element.step digitsOnly oneTensor) anyStep (Element.Started {}) _ :=
    Reach.get_exec (l := [.setConfigFile (.document [.property [(.networkType, ['7'])]])]) hinit (by decide +kernel)
  refine ⟨_, hreach, fun h => ?_⟩
  have hfree := h.lockFree.1
  revert hfree
  decide +kernel

end PostProcess
end DeepStream
