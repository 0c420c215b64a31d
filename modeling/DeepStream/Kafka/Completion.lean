/-
# Completion of the sends of a Kafka handle

Which thread has a completion object at which point: the sender until
`rd_kafka_producev` took the message, then librdkafka, then the thread that runs
the report, which deletes it. `Inv` counts for each send where its object and its
caller are; every step keeps it, whatever librdkafka answers. The callback of an
asynchronous send therefore runs once exactly if the call returned OK. The object
of a send that could not be enqueued has no owner any more and is never freed, and
a synchronous send returns OK whatever its report says.
-/
import DeepStream.Kafka.Client
import DeepStream.Lib.Keyed

namespace DeepStream
namespace Kafka

/-! ### What a frame has -/

namespace Frame

/-- The object is made and not yet handed over. -/
def made : Frame → List ℕ
  | .producing m => [m.private_]
  | _ => []

/-- The call is past `rd_kafka_producev`, or was refused. -/
def sending : Frame → List ℕ
  | .waiting n => [n]
  | .returning n _ => [n]
  | _ => []

def starting : Frame → List ℕ
  | .reporting n _ .start => [n]
  | _ => []

def flagged : Frame → List ℕ
  | .reporting n _ .flagSet => [n]
  | _ => []

/-- The send is completed, the object not yet deleted. -/
def finishing : Frame → List ℕ
  | .reporting n _ .inCallback => [n]
  | .reporting n _ .completed => [n]
  | _ => []

end Frame

namespace Client

variable (p : Sends) (s : Client)

def queued : List ℕ := s.queue.map (·.private_)

def held (own : Frame → List ℕ) : List ℕ := Stacks.held own s.threads

/-- The report of the send is still to call back. -/
def outstanding (n : ℕ) : ℕ := s.queued.count n + (s.held Frame.starting).count n

/-- Who will free the object: the caller, librdkafka or a report. -/
def owners (n : ℕ) : ℕ :=
  (s.held Frame.made).count n + s.queued.count n + (s.held Frame.starting).count n +
    (s.held Frame.flagged).count n + (s.held Frame.finishing).count n

/-- Call number `n` has made a completion object. -/
def Makes (n : ℕ) : Prop := n < s.next ∧ ¬ (p.calls n).Refused

instance (n : ℕ) : Decidable (s.Makes p n) := inferInstanceAs (Decidable (_ ∧ _))

/-- The sends of the handle are completed as they should. -/
structure Correct : Prop where
  answered : ∀ n, (p.calls n).sync = false → (p.calls n).sendCallback.isSome → ∀ r, (n, r) ∈ s.returned →
    (r = .ok ↔ s.answered.count n + s.outstanding n = 1)
  once : ∀ n, s.answered.count n ≤ 1
  status : ∀ n, (p.calls n).sync → s.Makes p n → n ∉ s.failed → ∀ r, (n, r) ∈ s.returned →
    ∃ err, (n, err) ∈ s.reported ∧ r = err.dserr
  freed : ∀ n, s.freed.count n + s.owners n = if s.Makes p n then 1 else 0
  reads : s.misused = []

end Client

/-! ### The invariant -/

/-- The object is the one that the call makes, completed or not. -/
def NvDsKafkaSendCompl.Of (c : Call) (n : ℕ) : NvDsKafkaSendCompl → Prop
  | .sync complFlag _ => c.sync ∧ complFlag = n
  | .async _ cb => c.sync = false ∧ cb = c.sendCallback

/-- What a call returns: `ok` if librdkafka took the message, and for a synchronous
call if the flag is set. -/
def Client.Returns (p : Sends) (s : Client) (n : ℕ) (r : NvDsMsgApiErrorType) : Prop :=
  (r = .ok ∧ s.Makes p n ∧ n ∉ s.failed ∧ ((p.calls n).sync → n ∈ s.done)) ∨
    (r = .err ∧ (n ∈ s.failed ∨ ¬ s.Makes p n))

def Frame.Ok (p : Sends) (s : Client) : Frame → Prop
  | .waiting n => s.Makes p n ∧ n ∉ s.failed ∧ (p.calls n).sync
  | .returning n r => s.Returns p n r
  | _ => True

/-- Where one send is: its object has one owner until it is freed or lost, its
caller is at one point. -/
structure Client.At (p : Sends) (s : Client) (n : ℕ) : Prop where
  objects : s.owners n + s.freed.count n + s.failed.count n = if s.Makes p n then 1 else 0
  callers : (s.held Frame.made).count n + (s.held Frame.sending).count n + (s.returned.map (·.1)).count n =
    if n < s.next then 1 else 0
  kinds : ∀ obj, s.compls n = some obj → obj.Of (p.calls n) n
  live : 0 < s.owners n → s.compls n ≠ none
  answered : s.answered.count n = if (p.calls n).sync = false ∧ (p.calls n).sendCallback.isSome then
    (s.held Frame.finishing).count n + s.freed.count n else 0
  flagged : (p.calls n).sync = false → (s.held Frame.flagged).count n = 0
  reported : (s.reported.map (·.1)).count n = (s.held Frame.starting).count n +
    (s.held Frame.flagged).count n + (s.held Frame.finishing).count n + s.freed.count n
  done : n ∈ s.done → 0 < (s.reported.map (·.1)).count n

structure Client.Inv (p : Sends) (s : Client) : Prop where
  calls : ∀ n, s.At p n
  frames : ∀ stack ∈ s.threads, ∀ f ∈ stack, f.Ok p s
  returned : ∀ q ∈ s.returned, s.Returns p q.1 q.2
  reads : s.misused = []

variable {p : Sends} {s s' : Client} {t n : ℕ} {old new : List Frame}

/-! ### What a step keeps -/

namespace Client

variable (s') in
/-- What the threads have when one of them changes its stack. -/
theorem counts_set (h : s.threads[t]? = some old) (hs : s'.threads = s.threads.set t new) (n : ℕ) :
    ((s'.held Frame.made).count n + (old.flatMap Frame.made).count n =
      (s.held Frame.made).count n + (new.flatMap Frame.made).count n) ∧
    ((s'.held Frame.sending).count n + (old.flatMap Frame.sending).count n =
      (s.held Frame.sending).count n + (new.flatMap Frame.sending).count n) ∧
    ((s'.held Frame.starting).count n + (old.flatMap Frame.starting).count n =
      (s.held Frame.starting).count n + (new.flatMap Frame.starting).count n) ∧
    ((s'.held Frame.flagged).count n + (old.flatMap Frame.flagged).count n =
      (s.held Frame.flagged).count n + (new.flatMap Frame.flagged).count n) ∧
    ((s'.held Frame.finishing).count n + (old.flatMap Frame.finishing).count n =
      (s.held Frame.finishing).count n + (new.flatMap Frame.finishing).count n) := by
  unfold held
  rw [hs]
  refine ⟨?_, ?_, ?_, ?_, ?_⟩ <;> exact Stacks.count_held_set _ h n

theorem held_pos (own : Frame → List ℕ) (h : old ∈ s.threads) {f : Frame} (hf : f ∈ old) (hn : n ∈ own f) :
    0 < (s.held own).count n :=
  List.count_pos_iff.mpr (List.mem_flatMap.mpr ⟨f, List.mem_flatten.mpr ⟨old, h, hf⟩, hn⟩)

/-- What other calls may rely on. -/
structure Keeps (s s' : Client) : Prop where
  next : s.next ≤ s'.next
  failed : ∀ n ∈ s'.failed, n ∈ s.failed ∨ 0 < (s.held Frame.made).count n
  failed_sub : s.failed ⊆ s'.failed
  done : s.done ⊆ s'.done

theorem Keeps.of_eq (hnext : s'.next = s.next) (hfailed : s'.failed = s.failed) (hdone : s.done ⊆ s'.done) :
    Keeps s s' :=
  ⟨Nat.le_of_eq hnext.symm, fun _ hn => .inl (hfailed ▸ hn), fun _ hn => hfailed ▸ hn, hdone⟩

theorem Returns.keep {r : NvDsMsgApiErrorType} (h : s.Returns p n r) (hk : Keeps s s') (hn : n < s.next)
    (hmade : (s.held Frame.made).count n = 0) : s'.Returns p n r := by
  have hmakes : s'.Makes p n ↔ s.Makes p n :=
    and_congr_left fun _ => ⟨fun _ => hn, fun _ => Nat.lt_of_lt_of_le hn hk.next⟩
  unfold Returns
  rw [hmakes]
  rcases h with ⟨hr, hm, hf, hd⟩ | ⟨hr, hf⟩
  · refine .inl ⟨hr, hm, fun hf' => ?_, fun hsync => hk.done (hd hsync)⟩
    rcases hk.failed n hf' with hold | hpos
    · exact hf hold
    · omega
  · exact .inr ⟨hr, hf.imp_left fun hf' => hk.failed_sub hf'⟩

end Client

theorem Frame.Ok.keep {f : Frame} (h : f.Ok p s) (hk : Client.Keeps s s')
    (hn : ∀ n ∈ f.sending, n < s.next ∧ (s.held Frame.made).count n = 0) : f.Ok p s' := by
  rcases f with m | n | ⟨n, r⟩ | _ | ⟨n, e, k⟩
  · trivial
  · obtain ⟨hlt, hmade⟩ := hn n (List.mem_singleton.mpr rfl)
    obtain ⟨hmakes, hf, hsync⟩ := h
    refine ⟨⟨Nat.lt_of_lt_of_le hlt hk.next, hmakes.2⟩, fun hf' => ?_, hsync⟩
    rcases hk.failed n hf' with hold | hpos
    · exact hf hold
    · omega
  · obtain ⟨hlt, hmade⟩ := hn n (List.mem_singleton.mpr rfl)
    exact Client.Returns.keep h hk hlt hmade
  · trivial
  · trivial

namespace Client

/-- The two sides agree on everything that is said of the send. -/
structure SameAt (s s' : Client) (n : ℕ) : Prop where
  made : (s'.held Frame.made).count n = (s.held Frame.made).count n
  sending : (s'.held Frame.sending).count n = (s.held Frame.sending).count n
  starting : (s'.held Frame.starting).count n = (s.held Frame.starting).count n
  flagged : (s'.held Frame.flagged).count n = (s.held Frame.flagged).count n
  finishing : (s'.held Frame.finishing).count n = (s.held Frame.finishing).count n
  queued : s'.queued.count n = s.queued.count n
  freed : s'.freed.count n = s.freed.count n
  failed : s'.failed.count n = s.failed.count n
  returned : (s'.returned.map (·.1)).count n = (s.returned.map (·.1)).count n
  reported : (s'.reported.map (·.1)).count n = (s.reported.map (·.1)).count n
  answered : s'.answered.count n = s.answered.count n
  compls : s'.compls n = s.compls n
  done : n ∈ s'.done → n ∈ s.done
  next : n < s'.next ↔ n < s.next

theorem SameAt.owners (h : SameAt s s' n) : s'.owners n = s.owners n := by
  simp only [Client.owners, h.made, h.queued, h.starting, h.flagged, h.finishing]

theorem At.congr (h : s.At p n) (hs : SameAt s s' n) : s'.At p n where
  objects := by
    simp only [hs.owners, hs.freed, hs.failed, Makes, hs.next]
    exact h.objects
  callers := by
    simp only [hs.made, hs.sending, hs.returned, hs.next]
    exact h.callers
  kinds := fun obj hobj => h.kinds obj (hs.compls ▸ hobj)
  live := fun hpos => by
    rw [hs.compls]
    exact h.live (hs.owners ▸ hpos)
  answered := by
    rw [hs.answered, hs.finishing, hs.freed]
    exact h.answered
  flagged := fun hsync => hs.flagged.trans (h.flagged hsync)
  reported := by
    rw [hs.reported, hs.starting, hs.flagged, hs.finishing, hs.freed]
    exact h.reported
  done := fun hn => by
    rw [hs.reported]
    exact h.done (hs.done hn)

/-- A call that is past `rd_kafka_producev` is not before it. -/
theorem At.past (h : s.At p n) (hn : 0 < (s.held Frame.sending).count n + (s.returned.map (·.1)).count n) :
    n < s.next ∧ (s.held Frame.made).count n = 0 := by
  have hc := h.callers
  split at hc <;> omega

theorem At.makes (h : s.At p n) (hn : 0 < s.owners n + s.freed.count n + s.failed.count n) : s.Makes p n := by
  have ho := h.objects
  by_contra hmakes
  rw [if_neg hmakes] at ho
  omega

namespace Inv

theorem frames_set (h : s.Inv p) (ht : s.threads[t]? = some old) (hk : Keeps s s')
    (hthreads : s'.threads = s.threads.set t new) (hnew : ∀ f ∈ new, f ∈ old ∨ f.Ok p s') :
    ∀ stack ∈ s'.threads, ∀ f ∈ stack, f.Ok p s' := by
  have hold : ∀ stack ∈ s.threads, ∀ f ∈ stack, f.Ok p s' := fun stack hstack f hf =>
    (h.frames stack hstack f hf).keep hk fun n hn =>
      (h.calls n).past (Nat.lt_of_lt_of_le (held_pos Frame.sending hstack hf hn) (Nat.le_add_right _ _))
  rw [hthreads]
  refine Stacks.forall_set (fun _ hf => hf) hold fun f hf => ?_
  rcases hnew f hf with hf | hf
  · exact hold old (List.mem_of_getElem? ht) f hf
  · exact hf

theorem returned_keep (h : s.Inv p) (hk : Keeps s s') : ∀ q ∈ s.returned, s'.Returns p q.1 q.2 := by
  intro q hq
  have hpos : 0 < (s.returned.map (·.1)).count q.1 := List.count_pos_iff.mpr (List.mem_map_of_mem hq)
  obtain ⟨hlt, hmade⟩ := (h.calls q.1).past (Nat.lt_of_lt_of_le hpos (Nat.le_add_left _ _))
  exact (h.returned q hq).keep hk hlt hmade

attribute [local simp] Frame.made Frame.sending Frame.starting Frame.flagged Frame.finishing List.count_cons

/-- A call begins that is refused. -/
theorem send_refused (h : s.Inv p) (ht : s.threads[t]? = some old) (hr : (p.calls s.next).Refused) :
    Inv p { s.setStack t (.returning s.next .err :: old) with next := s.next + 1 } := by
  set s' : Client := { s.setStack t (.returning s.next .err :: old) with next := s.next + 1 }
  have hk : Keeps s s' := ⟨Nat.le_succ _, fun _ hn => .inl hn, fun _ hn => hn, fun _ hn => hn⟩
  have hcounts := counts_set s' ht rfl
  simp at hcounts
  have hother : ∀ n, n ≠ s.next → SameAt s s' n := by
    intro n hn
    have hc := hcounts n
    rw [if_neg hn.symm] at hc
    refine ⟨by omega, by omega, by omega, by omega, by omega, rfl, rfl, rfl, rfl, rfl, rfl, rfl, id, ?_⟩
    show n < s.next + 1 ↔ n < s.next
    omega
  have hnot : ¬ s'.Makes p s.next := fun hm => hm.2 hr
  refine ⟨fun n => ?_, ?_, h.returned_keep hk, h.reads⟩
  · by_cases hn : n = s.next
    · subst hn
      have hc := hcounts s.next
      have ha := h.calls s.next
      obtain ⟨ho, hcall, hkinds, hlive, hans, hflag, hrep, hdone⟩ := ha
      rw [if_pos rfl] at hc
      have howners : s'.owners s.next = s.owners s.next := by
        show _ + s.queued.count _ + _ + _ + _ = _ + s.queued.count _ + _ + _ + _
        omega
      constructor
      · rw [howners, if_neg hnot]
        rw [if_neg fun hm => Nat.lt_irrefl _ hm.1] at ho
        exact ho
      · show _ + _ + (s.returned.map (·.1)).count s.next = if s.next < s.next + 1 then 1 else 0
        rw [if_neg (Nat.lt_irrefl _)] at hcall
        rw [if_pos (Nat.lt_succ_self _)]
        omega
      · exact hkinds
      · rw [howners]
        exact hlive
      · show s.answered.count _ = if _ then _ + s.freed.count _ else 0
        rw [hans, hc.2.2.2.2]
      · exact fun hsync => hc.2.2.2.1.trans (hflag hsync)
      · show (s.reported.map (·.1)).count _ = _ + _ + _ + s.freed.count _
        omega
      · exact hdone
    · exact (h.calls n).congr (hother n hn)
  · refine h.frames_set ht hk rfl fun f hf => ?_
    rcases List.mem_cons.mp hf with rfl | hf
    · exact .inr (.inr ⟨rfl, .inr hnot⟩)
    · exact .inl hf

/-- A call begins that makes its object. -/
theorem send_made (h : s.Inv p) (ht : s.threads[t]? = some old) (hr : ¬ (p.calls s.next).Refused) :
    Inv p { s.setStack t (.producing (p.message s.next) :: old) with
      next := s.next + 1, compls := Function.update s.compls s.next (some ((p.calls s.next).compl s.next)) } := by
  set s' : Client := { s.setStack t (.producing (p.message s.next) :: old) with
    next := s.next + 1, compls := Function.update s.compls s.next (some ((p.calls s.next).compl s.next)) }
  have hk : Keeps s s' := ⟨Nat.le_succ _, fun _ hn => .inl hn, fun _ hn => hn, fun _ hn => hn⟩
  have hcounts := counts_set s' ht rfl
  have hpriv : (p.message s.next).private_ = s.next := rfl
  simp [hpriv] at hcounts
  have hother : ∀ n, n ≠ s.next → SameAt s s' n := by
    intro n hn
    have hc := hcounts n
    rw [if_neg hn.symm] at hc
    refine ⟨by omega, by omega, by omega, by omega, by omega, rfl, rfl, rfl, rfl, rfl, rfl,
      Function.update_of_ne hn _ _, id, ?_⟩
    show n < s.next + 1 ↔ n < s.next
    omega
  refine ⟨fun n => ?_, ?_, h.returned_keep hk, h.reads⟩
  · by_cases hn : n = s.next
    · subst hn
      have hc := hcounts s.next
      obtain ⟨ho, hcall, hkinds, hlive, hans, hflag, hrep, hdone⟩ := h.calls s.next
      rw [if_pos rfl] at hc
      rw [if_neg fun hm => Nat.lt_irrefl _ hm.1] at ho
      rw [if_neg (Nat.lt_irrefl _)] at hcall
      have howners : s'.owners s.next = s.owners s.next + 1 := by
        show _ + s.queued.count _ + _ + _ + _ = _ + s.queued.count _ + _ + _ + _ + 1
        omega
      have hcompl : s'.compls s.next = some ((p.calls s.next).compl s.next) := Function.update_self _ _ _
      constructor
      · rw [if_pos ⟨Nat.lt_succ_self _, hr⟩, howners]
        show _ + s.freed.count s.next + s.failed.count s.next = 1
        omega
      · show _ + _ + (s.returned.map (·.1)).count s.next = if s.next < s.next + 1 then 1 else 0
        rw [if_pos (Nat.lt_succ_self _)]
        omega
      · intro obj hobj
        obtain rfl := Option.some.inj (hcompl.symm.trans hobj)
        unfold Call.compl
        by_cases hsync : (p.calls s.next).sync
        · rw [if_pos hsync]
          exact ⟨hsync, rfl⟩
        · rw [if_neg hsync]
          exact ⟨by simpa using hsync, rfl⟩
      · intro _
        rw [hcompl]
        exact Option.some_ne_none _
      · show s.answered.count _ = if _ then _ + s.freed.count _ else 0
        rw [hans, hc.2.2.2.2]
      · exact fun hsync => hc.2.2.2.1.trans (hflag hsync)
      · show (s.reported.map (·.1)).count _ = _ + _ + _ + s.freed.count _
        omega
      · exact hdone
    · exact (h.calls n).congr (hother n hn)
  · refine h.frames_set ht hk rfl fun f hf => ?_
    rcases List.mem_cons.mp hf with rfl | hf
    · exact .inr trivial
    · exact .inl hf

/-- Only frames change of which nothing is counted. -/
theorem setStack (h : s.Inv p) (ht : s.threads[t]? = some old)
    (hsame : ∀ own ∈ [Frame.made, Frame.sending, Frame.starting, Frame.flagged, Frame.finishing],
      new.flatMap own = old.flatMap own) (hnew : ∀ f ∈ new, f ∈ old ∨ f.Ok p s) : (s.setStack t new).Inv p := by
  have hk : Keeps s (s.setStack t new) := .of_eq rfl rfl fun _ hn => hn
  have hcounts := counts_set (s.setStack t new) ht rfl
  rw [hsame Frame.made (by simp), hsame Frame.sending (by simp), hsame Frame.starting (by simp),
    hsame Frame.flagged (by simp), hsame Frame.finishing (by simp)] at hcounts
  refine ⟨fun n => ?_, ?_, h.returned_keep hk, h.reads⟩
  · have hc := hcounts n
    exact (h.calls n).congr ⟨by omega, by omega, by omega, by omega, by omega, rfl, rfl, rfl, rfl, rfl, rfl, rfl, id,
      Iff.rfl⟩
  · refine h.frames_set ht hk rfl fun f hf => ?_
    rcases hnew f hf with hf | hf
    · exact .inl hf
    · exact .inr hf

/-- The object of a call that is about to be handed over. -/
theorem producing {m : Message} {rest : List Frame}
    (ht : s.threads[t]? = some (.producing m :: rest)) : 0 < (s.held Frame.made).count m.private_ :=
  held_pos Frame.made (List.mem_of_getElem? ht) List.mem_cons_self (List.mem_singleton.mpr rfl)

theorem produce_ok (h : s.Inv p) {m : Message} {rest : List Frame} {f : Frame}
    (ht : s.threads[t]? = some (.producing m :: rest))
    (hf : f = if (p.calls m.private_).sync then .waiting m.private_ else .returning m.private_ .ok) :
    Inv p { s.setStack t (f :: rest) with queue := s.queue ++ [m] } := by
  set s' : Client := { s.setStack t (f :: rest) with queue := s.queue ++ [m] }
  have hk : Keeps s s' := .of_eq rfl rfl fun _ hn => hn
  have hmade := producing ht
  have hsending : f.sending = [m.private_] := by
    rw [hf]
    split <;> rfl
  have hnone : f.made = [] ∧ f.starting = [] ∧ f.flagged = [] ∧ f.finishing = [] := by
    rw [hf]
    split <;> exact ⟨rfl, rfl, rfl, rfl⟩
  have hcounts := counts_set s' ht rfl
  have hm : (Frame.producing m).made = [m.private_] ∧ (Frame.producing m).sending = [] ∧
      (Frame.producing m).starting = [] ∧ (Frame.producing m).flagged = [] ∧ (Frame.producing m).finishing = [] :=
    ⟨rfl, rfl, rfl, rfl, rfl⟩
  simp only [List.flatMap_cons, hm, hsending, hnone, List.count_append, List.count_nil, List.count_singleton,
    beq_iff_eq, Nat.zero_add, Nat.add_right_cancel_iff] at hcounts
  have hqueued : ∀ n, s'.queued.count n = s.queued.count n + if m.private_ = n then 1 else 0 := by
    intro n
    show ((s.queue ++ [m]).map (·.private_)).count n = _
    simp [queued]
  have howners : ∀ n, s'.owners n = s.owners n := by
    intro n
    have hc := hcounts n
    have hq := hqueued n
    unfold owners
    omega
  obtain ⟨ho, hcall, hkinds, hlive, hans, hflag, hrep, hdone⟩ := h.calls m.private_
  have hpos : 0 < s.owners m.private_ := by
    unfold owners
    omega
  have hmakes : s.Makes p m.private_ := (h.calls _).makes (by omega)
  rw [if_pos hmakes] at ho
  have hfailed : m.private_ ∉ s.failed := fun hm => by
    have := List.count_pos_iff.mpr hm
    omega
  refine ⟨fun n => ?_, ?_, h.returned_keep hk, h.reads⟩
  · have hc := hcounts n
    by_cases hn : m.private_ = n
    · subst hn
      rw [if_pos rfl] at hc
      constructor
      · rw [howners]
        exact (h.calls m.private_).objects
      · show _ + _ + (s.returned.map (·.1)).count m.private_ = if m.private_ < s.next then 1 else 0
        omega
      · exact hkinds
      · rw [howners]
        exact hlive
      · show s.answered.count _ = if _ then _ + s.freed.count _ else 0
        rw [hans, hc.2.2.2.2]
      · exact fun hsync => hc.2.2.2.1.trans (hflag hsync)
      · show (s.reported.map (·.1)).count _ = _ + _ + _ + s.freed.count _
        omega
      · exact hdone
    · rw [if_neg hn] at hc
      have hq := hqueued n
      rw [if_neg hn] at hq
      exact (h.calls n).congr ⟨by omega, by omega, by omega, by omega, by omega, hq, rfl, rfl, rfl, rfl, rfl, rfl, id,
        Iff.rfl⟩
  · refine h.frames_set ht hk rfl fun g hg => ?_
    rcases List.mem_cons.mp hg with rfl | hg
    · right
      rw [hf]
      by_cases hsync : (p.calls m.private_).sync
      · rw [if_pos hsync]
        exact ⟨hmakes, hfailed, hsync⟩
      · rw [if_neg hsync]
        exact .inl ⟨rfl, hmakes, hfailed, fun hs => absurd hs hsync⟩
    · exact .inl (List.mem_cons_of_mem _ hg)

theorem produce_err (h : s.Inv p) {m : Message} {rest : List Frame}
    (ht : s.threads[t]? = some (.producing m :: rest)) :
    Inv p { s.setStack t (.returning m.private_ .err :: rest) with failed := m.private_ :: s.failed } := by
  set s' : Client := { s.setStack t (.returning m.private_ .err :: rest) with failed := m.private_ :: s.failed }
  have hmade := producing ht
  have hk : Keeps s s' := by
    refine ⟨Nat.le_refl _, fun n hn => ?_, fun _ hn => List.mem_cons_of_mem _ hn, fun _ hn => hn⟩
    rcases List.mem_cons.mp hn with rfl | hn
    · exact .inr hmade
    · exact .inl hn
  have hcounts := counts_set s' ht rfl
  simp at hcounts
  refine ⟨fun n => ?_, ?_, h.returned_keep hk, h.reads⟩
  · have hc := hcounts n
    by_cases hn : m.private_ = n
    · subst hn
      obtain ⟨ho, hcall, hkinds, hlive, hans, hflag, hrep, hdone⟩ := h.calls m.private_
      rw [if_pos rfl] at hc
      have hfailed : s'.failed.count m.private_ = s.failed.count m.private_ + 1 := List.count_cons_self
      have howners : s'.owners m.private_ + 1 = s.owners m.private_ := by
        show _ + s.queued.count _ + _ + _ + _ + 1 = _ + s.queued.count _ + _ + _ + _
        omega
      have hmakes : s.Makes p m.private_ := (h.calls _).makes (by omega)
      rw [if_pos hmakes] at ho
      constructor
      · rw [if_pos (show s'.Makes p _ from hmakes)]
        show _ + s.freed.count _ + _ = 1
        omega
      · show _ + _ + (s.returned.map (·.1)).count m.private_ = if m.private_ < s.next then 1 else 0
        omega
      · exact hkinds
      · intro hpos
        omega
      · show s.answered.count _ = if _ then _ + s.freed.count _ else 0
        rw [hans, hc.2.2.2.2]
      · exact fun hsync => hc.2.2.2.1.trans (hflag hsync)
      · show (s.reported.map (·.1)).count _ = _ + _ + _ + s.freed.count _
        omega
      · exact hdone
    · rw [if_neg hn] at hc
      have hf : s'.failed.count n = s.failed.count n := List.count_cons_of_ne hn
      exact (h.calls n).congr ⟨by omega, by omega, by omega, by omega, by omega, rfl, rfl, hf, rfl, rfl, rfl, rfl, id,
        Iff.rfl⟩
  · refine h.frames_set ht hk rfl fun f hf => ?_
    rcases List.mem_cons.mp hf with rfl | hf
    · exact .inr (.inr ⟨rfl, .inl List.mem_cons_self⟩)
    · exact .inl (List.mem_cons_of_mem _ hf)

/-- A report is served by a thread that polls. -/
theorem report (h : s.Inv p) (ht : s.threads[t]? = some old) {i : ℕ} {m : Message} (hi : s.queue[i]? = some m)
    (err : RespErr) :
    Inv p { s.setStack t (.reporting m.private_ err .start :: old) with
      queue := s.queue.eraseIdx i, reported := s.reported ++ [(m.private_, err)] } := by
  set s' : Client := { s.setStack t (.reporting m.private_ err .start :: old) with
    queue := s.queue.eraseIdx i, reported := s.reported ++ [(m.private_, err)] }
  have hk : Keeps s s' := .of_eq rfl rfl fun _ hn => hn
  have hcounts := counts_set s' ht rfl
  simp at hcounts
  have hqueued : ∀ n, s.queued.count n = s'.queued.count n + if m.private_ = n then 1 else 0 := by
    intro n
    obtain ⟨hlt, rfl⟩ := List.getElem?_eq_some_iff.mp hi
    have hperm := (List.getElem_cons_eraseIdx_perm hlt).map (·.private_)
    have hcount := hperm.count_eq n
    simp only [List.map_cons, List.count_cons, beq_iff_eq] at hcount
    exact hcount.symm
  have hreported : ∀ n, (s'.reported.map (·.1)).count n =
      (s.reported.map (·.1)).count n + if m.private_ = n then 1 else 0 := by
    intro n
    show ((s.reported ++ [(m.private_, err)]).map (·.1)).count n = _
    simp
  have howners : ∀ n, s'.owners n = s.owners n := by
    intro n
    have hc := hcounts n
    have hq := hqueued n
    unfold owners
    omega
  refine ⟨fun n => ?_, ?_, h.returned_keep hk, h.reads⟩
  · have hc := hcounts n
    have hq := hqueued n
    have hr := hreported n
    by_cases hn : m.private_ = n
    · subst hn
      obtain ⟨ho, hcall, hkinds, hlive, hans, hflag, hrep, hdone⟩ := h.calls m.private_
      rw [if_pos rfl] at hc hr
      constructor
      · rw [howners]
        exact ho
      · show _ + _ + (s.returned.map (·.1)).count m.private_ = if m.private_ < s.next then 1 else 0
        omega
      · exact hkinds
      · rw [howners]
        exact hlive
      · show s.answered.count _ = if _ then _ + s.freed.count _ else 0
        rw [hans, hc.2.2.2.2]
      · exact fun hsync => hc.2.2.2.1.trans (hflag hsync)
      · show _ = _ + _ + _ + s.freed.count _
        omega
      · intro _
        omega
    · rw [if_neg hn] at hc hq hr
      exact (h.calls n).congr ⟨by omega, by omega, by omega, by omega, by omega, hq.symm, rfl, rfl, rfl, hr, rfl, rfl,
        id, Iff.rfl⟩
  · refine h.frames_set ht hk rfl fun f hf => ?_
    rcases List.mem_cons.mp hf with rfl | hf
    · exact .inr trivial
    · exact .inl hf

/-- The object of a report that has not come to its end is there, and is the one
of the call. -/
theorem object (h : s.Inv p) (hn : 0 < s.owners n) : ∃ obj, s.compls n = some obj ∧ obj.Of (p.calls n) n := by
  obtain ⟨obj, hobj⟩ := Option.ne_none_iff_exists'.mp ((h.calls n).live hn)
  exact ⟨obj, hobj, (h.calls n).kinds obj hobj⟩

theorem starting {err : RespErr} {rest : List Frame} (ht : s.threads[t]? = some (.reporting n err .start :: rest)) :
    0 < (s.held Frame.starting).count n :=
  held_pos Frame.starting (List.mem_of_getElem? ht) List.mem_cons_self (List.mem_singleton.mpr rfl)

theorem sendcomplete_sync (h : s.Inv p) {err : RespErr} {rest : List Frame}
    (ht : s.threads[t]? = some (.reporting n err .start :: rest)) (hsync : (p.calls n).sync) :
    Inv p { s.setStack t (.reporting n err .flagSet :: rest) with done := n :: s.done } := by
  set s' : Client := { s.setStack t (.reporting n err .flagSet :: rest) with done := n :: s.done }
  have hk : Keeps s s' := .of_eq rfl rfl fun _ hn => List.mem_cons_of_mem _ hn
  have hstart := starting ht
  have hcounts := counts_set s' ht rfl
  simp at hcounts
  have howners : ∀ k, s'.owners k = s.owners k := by
    intro k
    have hc := hcounts k
    show _ + s.queued.count k + _ + _ + _ = _ + s.queued.count k + _ + _ + _
    omega
  refine ⟨fun k => ?_, ?_, h.returned_keep hk, h.reads⟩
  · have hc := hcounts k
    by_cases hn : n = k
    · subst hn
      obtain ⟨ho, hcall, hkinds, hlive, hans, hflag, hrep, hdone⟩ := h.calls n
      rw [if_pos rfl] at hc
      constructor
      · rw [howners]
        exact ho
      · show _ + _ + (s.returned.map (·.1)).count n = if n < s.next then 1 else 0
        omega
      · exact hkinds
      · rw [howners]
        exact hlive
      · show s.answered.count _ = if _ then _ + s.freed.count _ else 0
        rw [hans, hc.2.2.2.2]
      · exact fun hasync => absurd hsync (by simp [hasync])
      · show (s.reported.map (·.1)).count _ = _ + _ + _ + s.freed.count _
        omega
      · intro _
        show 0 < (s.reported.map (·.1)).count _
        omega
    · rw [if_neg hn] at hc
      refine (h.calls k).congr ⟨by omega, by omega, by omega, by omega, by omega, rfl, rfl, rfl, rfl, rfl, rfl, rfl,
        fun hk => ?_, Iff.rfl⟩
      exact (List.mem_cons.mp hk).resolve_left (Ne.symm hn)
  · refine h.frames_set ht hk rfl fun f hf => ?_
    rcases List.mem_cons.mp hf with rfl | hf
    · exact .inr trivial
    · exact .inl (List.mem_cons_of_mem _ hf)

/-- The callback runs, if there is one. -/
theorem sendcomplete_async (h : s.Inv p) {err : RespErr} {rest : List Frame} {k : Report} {calls : List ℕ}
    (ht : s.threads[t]? = some (.reporting n err .start :: rest)) (hasync : (p.calls n).sync = false)
    (hk : k = .inCallback ∧ calls = [n] ∧ (p.calls n).sendCallback.isSome ∨
      k = .completed ∧ calls = [] ∧ ¬ (p.calls n).sendCallback.isSome) :
    Inv p { s.setStack t (.reporting n err k :: rest) with answered := calls ++ s.answered } := by
  set s' : Client := { s.setStack t (.reporting n err k :: rest) with answered := calls ++ s.answered }
  have hkeeps : Keeps s s' := .of_eq rfl rfl fun _ hn => hn
  have hstart := starting ht
  have hcounts : ∀ j, ((s'.held Frame.made).count j = (s.held Frame.made).count j) ∧
      ((s'.held Frame.sending).count j = (s.held Frame.sending).count j) ∧
      ((s'.held Frame.starting).count j + (if n = j then 1 else 0) = (s.held Frame.starting).count j) ∧
      ((s'.held Frame.flagged).count j = (s.held Frame.flagged).count j) ∧
      ((s'.held Frame.finishing).count j = (s.held Frame.finishing).count j + if n = j then 1 else 0) := by
    intro j
    have hc := counts_set s' ht rfl j
    rcases hk with ⟨rfl, -⟩ | ⟨rfl, -⟩ <;> simp at hc <;> omega
  have howners : ∀ j, s'.owners j = s.owners j := by
    intro j
    have hc := hcounts j
    show _ + s.queued.count j + _ + _ + _ = _ + s.queued.count j + _ + _ + _
    omega
  have hanswered : ∀ j, s'.answered.count j = s.answered.count j +
      if n = j ∧ (p.calls n).sendCallback.isSome then 1 else 0 := by
    intro j
    show (calls ++ s.answered).count j = _
    rcases hk with ⟨-, rfl, hcb⟩ | ⟨-, rfl, hcb⟩
    · simp [hcb]
    · simp [hcb]
  refine ⟨fun j => ?_, ?_, h.returned_keep hkeeps, h.reads⟩
  · have hc := hcounts j
    have ha := hanswered j
    by_cases hn : n = j
    · subst hn
      obtain ⟨ho, hcall, hkinds, hlive, hans, hflag, hrep, hdone⟩ := h.calls n
      rw [if_pos rfl] at hc
      constructor
      · rw [howners]
        exact ho
      · show _ + _ + (s.returned.map (·.1)).count n = if n < s.next then 1 else 0
        omega
      · exact hkinds
      · rw [howners]
        exact hlive
      · have hfreed : s'.freed = s.freed := rfl
        rw [ha, hans, hfreed]
        by_cases hcb : (p.calls n).sendCallback.isSome
        · simp only [hasync, hcb, and_self, if_true]
          omega
        · simp [hcb]
      · exact fun hsync => hc.2.2.2.1.trans (hflag hsync)
      · show (s.reported.map (·.1)).count _ = _ + _ + _ + s.freed.count _
        omega
      · exact hdone
    · rw [if_neg hn] at hc
      rw [if_neg fun h => hn h.1] at ha
      exact (h.calls j).congr ⟨by omega, by omega, by omega, by omega, by omega, rfl, rfl, rfl, rfl, rfl, ha, rfl,
        id, Iff.rfl⟩
  · refine h.frames_set ht hkeeps rfl fun f hf => ?_
    rcases List.mem_cons.mp hf with rfl | hf
    · exact .inr trivial
    · exact .inl (List.mem_cons_of_mem _ hf)

/-- The store to `err`; only a synchronous send comes here. -/
theorem setErr (h : s.Inv p) {err : RespErr} {rest : List Frame}
    (ht : s.threads[t]? = some (.reporting n err .flagSet :: rest)) : (s.setErr t rest n err).Inv p := by
  have hflagged : 0 < (s.held Frame.flagged).count n :=
    held_pos Frame.flagged (List.mem_of_getElem? ht) List.mem_cons_self (List.mem_singleton.mpr rfl)
  obtain ⟨obj, hobj, hof⟩ := h.object (n := n) (by unfold owners; omega)
  have hsync : (p.calls n).sync := by
    by_contra hasync
    have := (h.calls n).flagged (by simpa using hasync)
    omega
  rcases obj with ⟨complFlag, e⟩ | ⟨userPtr, cb⟩
  · obtain rfl : complFlag = n := hof.2
    have heq : s.setErr t rest complFlag err = { s.setStack t (.reporting complFlag err .completed :: rest) with
        compls := Function.update s.compls complFlag (some (.sync complFlag (some err.dserr))) } := by
      unfold Client.setErr
      rw [hobj]
    rw [heq]
    set s' : Client := { s.setStack t (.reporting complFlag err .completed :: rest) with
      compls := Function.update s.compls complFlag (some (.sync complFlag (some err.dserr))) }
    have hk : Keeps s s' := .of_eq rfl rfl fun _ hn => hn
    have hcounts := counts_set s' ht rfl
    simp at hcounts
    have howners : ∀ k, s'.owners k = s.owners k := by
      intro k
      have hc := hcounts k
      show _ + s.queued.count k + _ + _ + _ = _ + s.queued.count k + _ + _ + _
      omega
    refine ⟨fun k => ?_, ?_, h.returned_keep hk, h.reads⟩
    · have hc := hcounts k
      by_cases hn : complFlag = k
      · subst hn
        obtain ⟨ho, hcall, hkinds, hlive, hans, hflag, hrep, hdone⟩ := h.calls complFlag
        rw [if_pos rfl] at hc
        have hcompl : s'.compls complFlag = some (.sync complFlag (some err.dserr)) := Function.update_self _ _ _
        constructor
        · rw [howners]
          exact ho
        · show _ + _ + (s.returned.map (·.1)).count complFlag = if complFlag < s.next then 1 else 0
          omega
        · intro obj hobj'
          obtain rfl := Option.some.inj (hcompl.symm.trans hobj')
          exact ⟨hsync, rfl⟩
        · intro _
          rw [hcompl]
          exact Option.some_ne_none _
        · show s.answered.count _ = if _ then _ + s.freed.count _ else 0
          rw [hans, if_neg (by simp [hsync]), if_neg (by simp [hsync])]
        · exact fun hasync => absurd hsync (by simp [hasync])
        · show (s.reported.map (·.1)).count _ = _ + _ + _ + s.freed.count _
          omega
        · exact hdone
      · rw [if_neg hn] at hc
        exact (h.calls k).congr ⟨by omega, by omega, by omega, by omega, by omega, rfl, rfl, rfl, rfl, rfl, rfl,
          Function.update_of_ne (Ne.symm hn) _ _, id, Iff.rfl⟩
    · refine h.frames_set ht hk rfl fun f hf => ?_
      rcases List.mem_cons.mp hf with rfl | hf
      · exact .inr trivial
      · exact .inl (List.mem_cons_of_mem _ hf)
  · exact absurd hsync (by simp [hof.1])

theorem delete (h : s.Inv p) {err : RespErr} {rest : List Frame}
    (ht : s.threads[t]? = some (.reporting n err .completed :: rest)) : (s.delete t rest n).Inv p := by
  have hfinishing : 0 < (s.held Frame.finishing).count n :=
    held_pos Frame.finishing (List.mem_of_getElem? ht) List.mem_cons_self (List.mem_singleton.mpr rfl)
  obtain ⟨obj, hobj, -⟩ := h.object (n := n) (by unfold owners; omega)
  have heq : s.delete t rest n =
      { s.setStack t rest with compls := Function.update s.compls n none, freed := n :: s.freed } := by
    unfold Client.delete
    rw [hobj]
  rw [heq]
  set s' : Client := { s.setStack t rest with compls := Function.update s.compls n none, freed := n :: s.freed }
  have hk : Keeps s s' := .of_eq rfl rfl fun _ hn => hn
  have hcounts := counts_set s' ht rfl
  simp at hcounts
  refine ⟨fun k => ?_, ?_, h.returned_keep hk, h.reads⟩
  · have hc := hcounts k
    by_cases hn : n = k
    · subst hn
      obtain ⟨ho, hcall, hkinds, hlive, hans, hflag, hrep, hdone⟩ := h.calls n
      rw [if_pos rfl] at hc
      have howners : s'.owners n + 1 = s.owners n := by
        show _ + s.queued.count _ + _ + _ + _ + 1 = _ + s.queued.count _ + _ + _ + _
        omega
      have hfreed : s'.freed.count n = s.freed.count n + 1 := List.count_cons_self
      have hcompl : s'.compls n = none := Function.update_self _ _ _
      have hmakes : s.Makes p n := (h.calls n).makes (by omega)
      rw [if_pos hmakes] at ho
      constructor
      · rw [if_pos (show s'.Makes p _ from hmakes)]
        show _ + _ + s.failed.count _ = 1
        omega
      · show _ + _ + (s.returned.map (·.1)).count n = if n < s.next then 1 else 0
        omega
      · intro obj hobj'
        exact absurd (hcompl.symm.trans hobj') (Option.some_ne_none _).symm
      · intro hpos
        omega
      · show s.answered.count _ = _
        rw [hans]
        split
        · omega
        · rfl
      · exact fun hsync => by have := hflag hsync; omega
      · show (s.reported.map (·.1)).count _ = _
        omega
      · exact hdone
    · rw [if_neg hn] at hc
      have hf : s'.freed.count k = s.freed.count k := List.count_cons_of_ne hn
      exact (h.calls k).congr ⟨by omega, by omega, by omega, by omega, by omega, rfl, hf, rfl, rfl, rfl, rfl,
        Function.update_of_ne (Ne.symm hn) _ _, id, Iff.rfl⟩
  · exact h.frames_set ht hk rfl fun f hf => .inl (List.mem_cons_of_mem _ hf)

/-- A call returns. -/
theorem returns (h : s.Inv p) {r : NvDsMsgApiErrorType} {rest : List Frame}
    (ht : s.threads[t]? = some (.returning n r :: rest)) :
    Inv p { s.setStack t rest with returned := s.returned ++ [(n, r)] } := by
  set s' : Client := { s.setStack t rest with returned := s.returned ++ [(n, r)] }
  have hk : Keeps s s' := .of_eq rfl rfl fun _ hn => hn
  have hcounts := counts_set s' ht rfl
  simp at hcounts
  have hreturned : ∀ k, (s'.returned.map (·.1)).count k =
      (s.returned.map (·.1)).count k + if n = k then 1 else 0 := by
    intro k
    show ((s.returned ++ [(n, r)]).map (·.1)).count k = _
    simp
  have howners : ∀ k, s'.owners k = s.owners k := by
    intro k
    have hc := hcounts k
    show _ + s.queued.count k + _ + _ + _ = _ + s.queued.count k + _ + _ + _
    omega
  refine ⟨fun k => ?_, ?_, ?_, h.reads⟩
  · have hc := hcounts k
    have hr := hreturned k
    by_cases hn : n = k
    · subst hn
      obtain ⟨ho, hcall, hkinds, hlive, hans, hflag, hrep, hdone⟩ := h.calls n
      rw [if_pos rfl] at hc hr
      constructor
      · rw [howners]
        exact ho
      · show _ + _ + _ = if n < s.next then 1 else 0
        omega
      · exact hkinds
      · rw [howners]
        exact hlive
      · show s.answered.count _ = if _ then _ + s.freed.count _ else 0
        rw [hans, hc.2.2.2.2]
      · exact fun hsync => hc.2.2.2.1.trans (hflag hsync)
      · show (s.reported.map (·.1)).count _ = _ + _ + _ + s.freed.count _
        omega
      · exact hdone
    · rw [if_neg hn] at hc hr
      exact (h.calls k).congr ⟨by omega, by omega, by omega, by omega, by omega, rfl, rfl, rfl, hr, rfl, rfl, rfl,
        id, Iff.rfl⟩
  · exact h.frames_set ht hk rfl fun f hf => .inl (List.mem_cons_of_mem _ hf)
  · intro q hq
    rcases List.mem_append.mp hq with hq | hq
    · exact h.returned_keep hk q hq
    · obtain rfl := List.mem_singleton.mp hq
      have hok : (Frame.returning n r).Ok p s := h.frames _ (List.mem_of_getElem? ht) _ List.mem_cons_self
      exact hok

theorem sendcomplete (h : s.Inv p) {err : RespErr} {rest : List Frame}
    (ht : s.threads[t]? = some (.reporting n err .start :: rest)) : (s.sendcomplete t rest n err).Inv p := by
  have hstart := starting ht
  obtain ⟨obj, hobj, hof⟩ := h.object (n := n) (by unfold owners; omega)
  unfold Client.sendcomplete
  rw [hobj]
  rcases obj with ⟨complFlag, e⟩ | ⟨userPtr, cb⟩
  · obtain ⟨hsync, rfl⟩ := hof
    exact h.sendcomplete_sync ht hsync
  · obtain ⟨hasync, hcb⟩ := hof
    rcases cb with _ | f
    · have hnone : ¬ (p.calls n).sendCallback.isSome := by simp [← hcb]
      exact h.sendcomplete_async ht hasync (.inr ⟨rfl, rfl, hnone⟩)
    · have hsome : (p.calls n).sendCallback.isSome := by simp [← hcb]
      exact h.sendcomplete_async ht hasync (.inl ⟨rfl, rfl, hsome⟩)

/-- The loop of a synchronous send: the flag is set, or it polls. -/
theorem waiting (h : s.Inv p) {rest : List Frame} {f : List Frame} (ht : s.threads[t]? = some (.waiting n :: rest))
    (hf : f = [.returning n .ok] ∧ n ∈ s.done ∨ f = [.polling, .waiting n]) : (s.setStack t (f ++ rest)).Inv p := by
  have hok : (Frame.waiting n).Ok p s := h.frames _ (List.mem_of_getElem? ht) _ List.mem_cons_self
  refine h.setStack ht ?_ ?_
  · rcases hf with ⟨rfl, -⟩ | rfl <;> simp
  · intro g hg
    rcases hf with ⟨rfl, hdone⟩ | rfl
    · rcases List.mem_cons.mp hg with rfl | hg
      · exact .inr (.inl ⟨rfl, hok.1, hok.2.1, fun _ => hdone⟩)
      · exact .inl (List.mem_cons_of_mem _ hg)
    · rcases List.mem_cons.mp hg with rfl | hg
      · exact .inr trivial
      · exact .inl hg

end Inv

theorem inv_started (h : Started s) : s.Inv p := by
  obtain ⟨k, rfl⟩ := h
  have hheld : ∀ own : Frame → List ℕ, held { threads := List.replicate k [] } own = [] := by
    intro own
    simp [held, Stacks.held]
  refine ⟨fun n => ?_, ?_, by simp, rfl⟩
  · constructor <;> simp [owners, queued, hheld, Makes]
  · intro stack hstack f hf
    obtain ⟨-, rfl⟩ := List.mem_replicate.mp hstack
    cases hf

theorem inv_step {a : Action} (h : s.Inv p) (hs : s.step p a = some s') : s'.Inv p := by
  cases a with
  | send t =>
    obtain ⟨stack, ht, hs⟩ := Option.bind_eq_some_iff.mp hs
    split at hs
    · obtain rfl := Option.some.inj hs
      unfold send
      by_cases hr : (p.calls s.next).Refused
      · rw [if_pos hr]
        exact h.send_refused ht hr
      · rw [if_neg hr]
        exact h.send_made ht hr
    · cases hs
  | produce t err =>
    dsimp only [step] at hs
    split at hs
    · rename_i m stack ht
      obtain rfl := Option.some.inj hs
      unfold produce
      split
      · exact h.produce_ok ht rfl
      · exact h.produce_err ht
    · cases hs
  | doWork t =>
    obtain ⟨stack, ht, hs⟩ := Option.bind_eq_some_iff.mp hs
    split at hs
    · obtain rfl := Option.some.inj hs
      refine h.setStack ht (by simp [Frame.made, Frame.sending, Frame.starting, Frame.flagged, Frame.finishing]) ?_
      intro f hf
      rcases List.mem_cons.mp hf with rfl | hf
      · exact .inr trivial
      · exact .inl hf
    · cases hs
  | report t i err =>
    dsimp only [step] at hs
    split at hs
    · rename_i stack m ht hi
      obtain rfl := Option.some.inj hs
      exact h.report ht hi err
    · cases hs
  | goOn t =>
    obtain ⟨stack, ht, hs⟩ := Option.bind_eq_some_iff.mp hs
    unfold goOn at hs
    split at hs
    · rename_i n rest
      split at hs <;> obtain rfl := Option.some.inj hs
      · exact h.waiting ht (.inl ⟨rfl, ‹_›⟩)
      · exact h.waiting ht (.inr rfl)
    · obtain rfl := Option.some.inj hs
      exact h.returns ht
    · obtain rfl := Option.some.inj hs
      refine h.setStack ht (by simp [Frame.made, Frame.sending, Frame.starting, Frame.flagged, Frame.finishing]) ?_
      exact fun f hf => .inl (List.mem_cons_of_mem _ hf)
    · obtain rfl := Option.some.inj hs
      exact h.sendcomplete ht
    · obtain rfl := Option.some.inj hs
      exact h.setErr ht
    · obtain rfl := Option.some.inj hs
      refine h.setStack ht (by simp [Frame.made, Frame.sending, Frame.starting, Frame.flagged, Frame.finishing]) ?_
      intro f hf
      rcases List.mem_cons.mp hf with rfl | hf
      · exact .inr trivial
      · exact .inl (List.mem_cons_of_mem _ hf)
    · obtain rfl := Option.some.inj hs
      exact h.delete ht
    · cases hs

/-! ### The claim -/

namespace Inv

theorem notMem_returned_made (h : s.Inv p) {r : NvDsMsgApiErrorType} (hr : (n, r) ∈ s.returned) :
    (s.held Frame.made).count n = 0 := by
  have hpos : 0 < (s.returned.map (·.1)).count n :=
    List.count_pos_iff.mpr (List.mem_map.mpr ⟨(n, r), hr, rfl⟩)
  exact ((h.calls n).past (Nat.lt_of_lt_of_le hpos (Nat.le_add_left _ _))).2

/-- The callback of an asynchronous send runs once if the call returned OK, else
never. -/
theorem answered_iff (h : s.Inv p) (hasync : (p.calls n).sync = false) (hcb : (p.calls n).sendCallback.isSome)
    {r : NvDsMsgApiErrorType} (hr : (n, r) ∈ s.returned) :
    r = .ok ↔ s.answered.count n + s.outstanding n = 1 := by
  obtain ⟨ho, hcall, hkinds, hlive, hans, hflag, hrep, hdone⟩ := h.calls n
  have hmade := h.notMem_returned_made hr
  have hflagged := hflag hasync
  rw [if_pos ⟨hasync, hcb⟩] at hans
  have htotal : s.answered.count n + s.outstanding n + s.failed.count n = if s.Makes p n then 1 else 0 := by
    rw [← ho, hans]
    unfold outstanding owners
    omega
  rcases h.returned (n, r) hr with ⟨hok, hmakes, hf, -⟩ | ⟨herr, hf⟩
  · rw [if_pos hmakes, List.count_eq_zero_of_not_mem hf] at htotal
    exact ⟨fun _ => htotal, fun _ => hok⟩
  · have hne : r ≠ .ok := fun hok => by
      rw [show r = .err from herr] at hok
      cases hok
    refine ⟨fun hok => absurd hok hne, fun hone => ?_⟩
    rcases hf with hf | hf
    · have hpos : 0 < s.failed.count n := List.count_pos_iff.mpr hf
      split at htotal <;> omega
    · rw [if_neg hf] at htotal
      omega

theorem makes_of_reported (h : s.Inv p) {err : RespErr} (hr : (n, err) ∈ s.reported) : s.Makes p n := by
  have hpos : 0 < (s.reported.map (·.1)).count n := List.count_pos_iff.mpr (List.mem_map.mpr ⟨_, hr, rfl⟩)
  have hrep := (h.calls n).reported
  refine (h.calls n).makes ?_
  unfold owners
  omega

theorem reported_eq (h : s.Inv p) {err err' : RespErr} (hr : (n, err) ∈ s.reported) (hr' : (n, err') ∈ s.reported) :
    err = err' := by
  refine Keyed.eq_of_count_le_one ?_ hr hr'
  obtain ⟨ho, -, -, -, -, -, hrep, -⟩ := h.calls n
  unfold owners at ho
  split at ho <;> omega

end Inv

/-- The sends of a handle are completed correctly in exactly those states in which
no message failed to be enqueued and no synchronous send returned whose message was
reported with an error. -/
theorem correct_iff (h : Reach (step p) anyStep Started s) : s.Correct p ↔ s.failed = [] ∧
    ∀ n r err, (p.calls n).sync → (n, r) ∈ s.returned → (n, err) ∈ s.reported → err = .noError := by
  have hinv : s.Inv p := h.invariant (I := Inv p) (fun _ => inv_started) fun _ _ _ hi _ hs => inv_step hi hs
  constructor
  · intro hc
    have hfailed : s.failed = [] := by
      refine List.eq_nil_iff_forall_not_mem.mpr fun n hn => ?_
      have hpos : 0 < s.failed.count n := List.count_pos_iff.mpr hn
      have ho := (hinv.calls n).objects
      have hf := hc.freed n
      omega
    refine ⟨hfailed, fun n r err hsync hr herr => ?_⟩
    have hmakes := hinv.makes_of_reported herr
    have hnot : n ∉ s.failed := by simp [hfailed]
    obtain ⟨err', herr', hstatus⟩ := hc.status n hsync hmakes hnot r hr
    have hok : r = .ok := by
      rcases hinv.returned (n, r) hr with ⟨hok, -⟩ | ⟨-, hf⟩
      · exact hok
      · rcases hf with hf | hf
        · exact absurd hf hnot
        · exact absurd hmakes hf
    rw [hinv.reported_eq herr herr']
    rw [hok] at hstatus
    rcases err' with _ | _ | _ | _ <;> first | rfl | cases hstatus
  · rintro ⟨hfailed, herrors⟩
    refine ⟨fun n hasync hcb r hr => hinv.answered_iff hasync hcb hr, fun n => ?_, ?_, fun n => ?_, hinv.reads⟩
    · obtain ⟨ho, -, -, -, hans, -⟩ := hinv.calls n
      unfold owners at ho
      split at ho <;> split at hans <;> omega
    · intro n hsync hmakes hnot r hr
      rcases hinv.returned (n, r) hr with ⟨hok, -, -, hdone⟩ | ⟨-, hf⟩
      · have hpos := (hinv.calls n).done (hdone hsync)
        obtain ⟨⟨k, err⟩, herr, rfl⟩ := List.mem_map.mp (List.count_pos_iff.mp hpos)
        refine ⟨err, herr, ?_⟩
        rw [herrors k r err hsync hr herr]
        exact hok
      · rcases hf with hf | hf
        · exact absurd hf hnot
        · exact absurd hmakes hf
    · have ho := (hinv.calls n).objects
      rw [hfailed, List.count_nil] at ho
      omega

/-- An asynchronous send with a callback, then a synchronous one. -/
def twoSends : Sends where
  keys := ⟨fun _ => none, fun _ => ""⟩
  calls n := if n = 0 then ⟨false, some "alerts", some [0], 7, some 9⟩ else ⟨true, some "alerts", some [1], 0, none⟩

/-- Thread 1 polls in its synchronous send and serves both reports. -/
def bothServed : List Action :=
  [.send 0, .produce 0 .noError, .goOn 0, .send 1, .produce 1 .noError, .goOn 1, .report 1 0 .noError, .goOn 1,
    .goOn 1, .goOn 1, .report 1 0 .noError, .goOn 1, .goOn 1, .goOn 1, .goOn 1, .goOn 1, .goOn 1]

theorem correct_iff_twoSends : ∃ s : Client, Reach (step twoSends) anyStep Started s ∧
    s.returned = [(0, .ok), (1, .ok)] ∧ s.answered = [0] ∧ s.freed = [1, 0] ∧ s.Correct twoSends := by
  have hreach : Reach (step twoSends) anyStep Started _ :=
    Reach.get_exec (s := { threads := [[], []] }) (l := bothServed) ⟨2, rfl⟩ (by decide +kernel)
  refine ⟨_, hreach, by decide +kernel, by decide +kernel, by decide +kernel, (correct_iff hreach).mpr
    ⟨by decide +kernel, fun n r err _ _ herr => ?_⟩⟩
  have hall : ∀ q ∈ Client.reported ((exec (step twoSends) anyStep { threads := [[], []] } bothServed).get
      (by decide +kernel)), q.2 = .noError := by decide +kernel
  exact hall _ herr

/-- A synchronous send whose message is reported as failed returns OK; the object of
a message that is not enqueued is left behind. -/
theorem failure_hidden :
    (∃ s : Client, Reach (step ⟨⟨fun _ => none, fun _ => ""⟩, fun _ => ⟨true, some "alerts", some [1], 0, none⟩⟩)
        anyStep Started s ∧ s.reported = [(0, .other 1)] ∧ s.returned = [(0, .ok)] ∧
        ¬ s.Correct ⟨⟨fun _ => none, fun _ => ""⟩, fun _ => ⟨true, some "alerts", some [1], 0, none⟩⟩) ∧
      ∃ s : Client, Reach (step twoSends) anyStep Started s ∧ s.failed = [0] ∧ ¬ s.Correct twoSends := by
  constructor
  · refine ⟨_, Reach.get_exec (s := { threads := [[]] }) (l := [.send 0, .produce 0 .noError, .goOn 0,
      .report 0 0 (.other 1), .goOn 0, .goOn 0, .goOn 0, .goOn 0, .goOn 0, .goOn 0]) ⟨1, rfl⟩ (by decide +kernel),
      by decide +kernel, by decide +kernel, fun hc => ?_⟩
    obtain ⟨err, herr, hstatus⟩ := hc.status 0 rfl (by decide +kernel) (by decide +kernel) .ok (by decide +kernel)
    have hall : ∀ q ∈ [((0 : ℕ), RespErr.other 1)], q.2.dserr ≠ .ok := by decide
    exact hall (0, err) herr hstatus.symm
  · refine ⟨_, Reach.get_exec (s := { threads := [[]] }) (l := [.send 0, .produce 0 .queueFull]) ⟨1, rfl⟩
      (by decide +kernel), by decide +kernel, fun hc => ?_⟩
    have hfreed := hc.freed 0
    revert hfreed
    decide +kernel

end Client
end Kafka
end DeepStream
