/-
# Records in the SEI metadata of a stream

`serialize_data` adds up the sizes of the custom payloads of a batch in 32 bits, and writes each with
a header, its type and its size, one after the other. `deserialize_data` goes through what was received
with a count of the bytes that are left, in 32 bits too, and nothing compares a size with it: a size
that is too large makes the count wrap, and the loop goes on behind the end, or for ever.
-/
import DeepStream.Lib.Bytes
import DeepStream.Lib.Word
import Mathlib.Algebra.BigOperators.Group.List.Basic

namespace DeepStream
namespace MetaUtils
namespace Sei

open Bytes

/-! ### Payloads -/

/-- `NVDS_CUSTOM_PAYLOAD`, its fields are `uint32_t`. -/
structure NvdsCustomPayload where
  payloadType : ℕ
  payload : List UInt8
  type_lt : payloadType < 2 ^ 32
  size_lt : payload.length < 2 ^ 32
  deriving DecidableEq

def NvdsCustomPayload.payloadSize (p : NvdsCustomPayload) : ℕ := p.payload.length

inductive NvDsUserMeta where
  | dummyBboxMeta (userMetaData : NvdsCustomPayload)
  | other
  deriving DecidableEq

structure NvDsFrameMeta where
  frameUserMetaList : List NvDsUserMeta
  deriving DecidableEq

/-- What is sent of a user meta. -/
def NvDsUserMeta.customPayload : NvDsUserMeta → Option NvdsCustomPayload
  | .dummyBboxMeta userMetaData => some userMetaData
  | .other => none

/-- The payloads in the order of the loops over the frames and their user metas. -/
def payloads (frameMetaList : List NvDsFrameMeta) : List NvdsCustomPayload :=
  frameMetaList.flatMap fun frameMeta => frameMeta.frameUserMetaList.filterMap NvDsUserMeta.customPayload

/-- `GstVideoSEIMeta`, the size is a `guint`. -/
structure GstVideoSeiMeta where
  seiMetadataType : String
  seiMetadataSize : ℕ
  seiMetadataPtr : ℕ → UInt8
  size_lt : seiMetadataSize < 2 ^ 32

def gstUserSeiMeta : String := "GST.USER.SEI.META"

/-! ### Serialization -/

/-- The first loop of `serialize_data`. -/
def seiMemSize (ps : List NvdsCustomPayload) : ℕ :=
  ps.foldl (fun size p => wrapAdd 32 size (p.payloadSize + 8)) 0

/-- The second loop: a `memcpy` beyond the memory is undefined. -/
def writePayloads : List NvdsCustomPayload → ℕ → List UInt8 → Option (List UInt8)
  | [], _, seiMem => some seiMem
  | p :: ps, memPtr, seiMem =>
    (memcpyAt seiMem memPtr (le32 p.payloadType)).bind fun seiMem =>
      (memcpyAt seiMem (memPtr + 4) (le32 p.payloadSize)).bind fun seiMem =>
        (memcpyAt seiMem (memPtr + 8) p.payload).bind fun seiMem =>
          writePayloads ps (memPtr + 8 + p.payloadSize) seiMem

theorem seiMemSize_lt (ps : List NvdsCustomPayload) : seiMemSize ps < 2 ^ 32 := by
  have hmod : ∀ (ps : List NvdsCustomPayload) size, size < 2 ^ 32 →
      ps.foldl (fun size p => wrapAdd 32 size (p.payloadSize + 8)) size < 2 ^ 32 := by
    intro ps
    induction ps with
    | nil => exact fun _ h => h
    | cons p ps ih => exact fun _ _ => ih _ (Nat.mod_lt _ (by norm_num))
  exact hmod ps 0 (by norm_num)

/-- The SEI meta that is added to the buffer; `beyond` is the memory behind what was allocated. -/
def serializeData (beyond : ℕ → UInt8) (frameMetaList : List NvDsFrameMeta) : Option GstVideoSeiMeta :=
  let seiMemSize' := seiMemSize (payloads frameMetaList)
  (writePayloads (payloads frameMetaList) 0 (List.replicate seiMemSize' 0)).map fun seiMem =>
    ⟨gstUserSeiMeta, seiMemSize', fun i => seiMem.getD i (beyond i), seiMemSize_lt _⟩

/-! ### Deserialization -/

/-- What one round of the loop finds, at the offset `ptr`. -/
structure Record where
  metadataType : ℕ
  metadataSize : ℕ
  ptr : ℕ
  deriving DecidableEq, Repr

def readRecord (mem : ℕ → UInt8) (ptr : ℕ) : Record where
  metadataType := word (mem ptr) (mem (ptr + 1)) (mem (ptr + 2)) (mem (ptr + 3))
  metadataSize := word (mem (ptr + 4)) (mem (ptr + 4 + 1)) (mem (ptr + 4 + 2)) (mem (ptr + 4 + 3))
  ptr := ptr

/-- The loop of `deserialize_data`, of at most `fuel` rounds. -/
def deserializeLoop (mem : ℕ → UInt8) : ℕ → ℕ → ℕ → Option (List Record)
  | fuel, ptr, totalMetadataSize =>
    if totalMetadataSize = 0 then some []
    else match fuel with
      | 0 => none
      | fuel + 1 =>
        let r := readRecord mem ptr
        let advance := wrapAdd 32 r.metadataSize 8
        (deserializeLoop mem fuel (ptr + advance) (wrapSub 32 totalMetadataSize advance)).map (r :: ·)

/-- Without a meta of the user type there is nothing to do. -/
def deserializeData (fuel : ℕ) : Option GstVideoSeiMeta → Option (List Record)
  | none => some []
  | some seiMeta =>
    if seiMeta.seiMetadataType = gstUserSeiMeta then
      deserializeLoop seiMeta.seiMetadataPtr fuel 0 seiMeta.seiMetadataSize
    else some []

/-- The type, the size and the bytes of a record. -/
def Record.data (mem : ℕ → UInt8) (r : Record) : ℕ × ℕ × List UInt8 :=
  (r.metadataType, r.metadataSize, block mem (r.ptr + 8) r.metadataSize)

/-- The metas that were serialized are found again. -/
def RoundTrips (beyond : ℕ → UInt8) (frameMetaList : List NvDsFrameMeta) : Prop :=
  ∃ seiMeta, serializeData beyond frameMetaList = some seiMeta ∧
    ∃ fuel records, deserializeData fuel (some seiMeta) = some records ∧
      records.map (Record.data seiMeta.seiMetadataPtr) =
        (payloads frameMetaList).map fun p => (p.payloadType, p.payloadSize, p.payload)

/-- The loop ends, and each header and payload is within the declared size. -/
def SafelyDecodes (seiMeta : GstVideoSeiMeta) : Prop :=
  ∃ fuel records, deserializeLoop seiMeta.seiMetadataPtr fuel 0 seiMeta.seiMetadataSize = some records ∧
    ∀ r ∈ records, r.ptr + 8 + r.metadataSize ≤ seiMeta.seiMetadataSize

/-! ### The bytes of the payloads -/

def NvdsCustomPayload.bytes (p : NvdsCustomPayload) : List UInt8 :=
  le32 p.payloadType ++ (le32 p.payloadSize ++ p.payload)

@[simp] theorem NvdsCustomPayload.length_bytes (p : NvdsCustomPayload) : p.bytes.length = p.payloadSize + 8 := by
  simp only [NvdsCustomPayload.bytes, List.length_append, length_le32, NvdsCustomPayload.payloadSize]
  omega

/-- What is sent for the payloads. -/
def encode (ps : List NvdsCustomPayload) : List UInt8 := ps.flatMap NvdsCustomPayload.bytes

theorem encode_cons (p : NvdsCustomPayload) (ps : List NvdsCustomPayload) : encode (p :: ps) = p.bytes ++ encode ps :=
  List.flatMap_cons

theorem length_encode_cons (p : NvdsCustomPayload) (ps : List NvdsCustomPayload) :
    (encode (p :: ps)).length = p.payloadSize + 8 + (encode ps).length := by
  rw [encode_cons, List.length_append, p.length_bytes]

theorem seiMemSize_eq (ps : List NvdsCustomPayload) : seiMemSize ps = (encode ps).length % 2 ^ 32 := by
  have hfold : ∀ (ps : List NvdsCustomPayload) size, size < 2 ^ 32 →
      ps.foldl (fun size p => wrapAdd 32 size (p.payloadSize + 8)) size = (size + (encode ps).length) % 2 ^ 32 := by
    intro ps
    induction ps with
    | nil => exact fun size h => (Nat.mod_eq_of_lt h).symm
    | cons p ps ih =>
      intro size _
      rw [List.foldl_cons, ih (wrapAdd 32 size (p.payloadSize + 8)) (Nat.mod_lt _ (by norm_num)), length_encode_cons,
        wrapAdd, Nat.mod_add_mod, Nat.add_assoc]
  rw [seiMemSize, hfold ps 0 (by norm_num), Nat.zero_add]

/-- The three copies of a round are one. -/
theorem writePayloads_cons (p : NvdsCustomPayload) (ps : List NvdsCustomPayload) (memPtr : ℕ) (seiMem : List UInt8) :
    writePayloads (p :: ps) memPtr seiMem =
      (memcpyAt seiMem memPtr p.bytes).bind (writePayloads ps (memPtr + p.bytes.length)) := by
  have hoff : memPtr + p.bytes.length = memPtr + 8 + p.payloadSize := by
    rw [p.length_bytes]
    omega
  unfold NvdsCustomPayload.bytes at *
  rw [hoff, ← memcpyAt_append, Option.bind_assoc]
  refine congrArg _ (funext fun seiMem => ?_)
  rw [length_le32, ← memcpyAt_append, Option.bind_assoc]
  rfl

/-- The payloads are written one after the other, if they fit. -/
theorem writePayloads_eq : ∀ (ps : List NvdsCustomPayload) {memPtr : ℕ} {seiMem : List UInt8}, memPtr ≤ seiMem.length →
    writePayloads ps memPtr seiMem = memcpyAt seiMem memPtr (encode ps)
  | [], memPtr, seiMem, h => by
    have hcopy : memcpyAt seiMem memPtr [] = some (seiMem.take memPtr ++ [] ++ seiMem.drop (memPtr + 0)) := if_pos h
    rw [encode, List.flatMap_nil, hcopy, List.append_nil, Nat.add_zero, List.take_append_drop]
    rfl
  | p :: ps, memPtr, seiMem, _ => by
    rw [writePayloads_cons, encode_cons, ← memcpyAt_append]
    refine Option.bind_congr fun seiMem' hcopy => ?_
    obtain ⟨hle, hlen⟩ := memcpyAt_eq_some hcopy
    exact writePayloads_eq ps (by omega)

theorem length_encode (ps : List NvdsCustomPayload) : (encode ps).length = (ps.map fun p => p.payloadSize + 8).sum := by
  induction ps with
  | nil => rfl
  | cons p ps ih => rw [length_encode_cons, ih, List.map_cons, List.sum_cons]

theorem serializeData_eq {frameMetaList : List NvDsFrameMeta} (h : (encode (payloads frameMetaList)).length < 2 ^ 32)
    (beyond : ℕ → UInt8) : serializeData beyond frameMetaList = some ⟨gstUserSeiMeta,
      (encode (payloads frameMetaList)).length, fun i => (encode (payloads frameMetaList)).getD i (beyond i), h⟩ := by
  have hsize : seiMemSize (payloads frameMetaList) = (encode (payloads frameMetaList)).length := by
    rw [seiMemSize_eq, Nat.mod_eq_of_lt h]
  have hcopy : memcpyAt (List.replicate (encode (payloads frameMetaList)).length 0) 0 (encode (payloads frameMetaList)) =
      some (encode (payloads frameMetaList)) := by
    unfold memcpyAt
    rw [List.length_replicate, Nat.zero_add, if_pos le_rfl, List.drop_of_length_le (by rw [List.length_replicate]),
      List.append_nil, List.take_zero, List.nil_append]
  unfold serializeData
  simp only [hsize]
  rw [writePayloads_eq _ (Nat.zero_le _), hcopy]
  rfl

/-- The memory that is allocated holds the payloads only if their number of bytes is a 32-bit number. -/
theorem length_encode_lt {beyond : ℕ → UInt8} {frameMetaList : List NvDsFrameMeta} {seiMeta : GstVideoSeiMeta}
    (h : serializeData beyond frameMetaList = some seiMeta) : (encode (payloads frameMetaList)).length < 2 ^ 32 := by
  obtain ⟨seiMem, hwrite, -⟩ := Option.map_eq_some_iff.mp h
  rw [writePayloads_eq _ (Nat.zero_le _)] at hwrite
  obtain ⟨hle, -⟩ := memcpyAt_eq_some hwrite
  rw [List.length_replicate, seiMemSize_eq, Nat.zero_add] at hle
  exact hle.trans_lt (Nat.mod_lt _ (by norm_num))

/-! ### The loop over the records -/

variable {mem : ℕ → UInt8}

theorem readRecord_eq {ptr t size : ℕ} (ht : t < 2 ^ 32) (hsize : size < 2 ^ 32)
    (h : block mem ptr 8 = le32 t ++ le32 size) : readRecord mem ptr = ⟨t, size, ptr⟩ := by
  simp only [block, le32, List.cons_append, List.nil_append, List.cons.injEq, and_true] at h
  obtain ⟨h₀, h₁, h₂, h₃, h₄, h₅, h₆, h₇⟩ := h
  have htype : word (mem ptr) (mem (ptr + 1)) (mem (ptr + 2)) (mem (ptr + 3)) = t := by
    rw [h₀, h₁, h₂, h₃]
    exact word_le32 ht
  have hword : word (mem (ptr + 4)) (mem (ptr + 4 + 1)) (mem (ptr + 4 + 2)) (mem (ptr + 4 + 3)) = size := by
    rw [h₄, h₅, h₆, h₇]
    exact word_le32 hsize
  rw [readRecord, htype, hword]

/-- What the loop finds where a payload was written. -/
theorem readRecord_bytes {ptr n : ℕ} {p : NvdsCustomPayload} {rest : List UInt8}
    (h : block mem ptr (p.payloadSize + 8 + n) = p.bytes ++ rest) :
    readRecord mem ptr = ⟨p.payloadType, p.payloadSize, ptr⟩ ∧ block mem (ptr + 8) p.payloadSize = p.payload ∧
      block mem (ptr + (p.payloadSize + 8)) n = rest := by
  have hlen : (block mem ptr (p.payloadSize + 8)).length = p.bytes.length := by
    rw [length_block, p.length_bytes]
  rw [block_add] at h
  obtain ⟨hbytes, hrest⟩ := List.append_inj h hlen
  have hsplit : block mem ptr 8 ++ block mem (ptr + 8) p.payloadSize =
      (le32 p.payloadType ++ le32 p.payloadSize) ++ p.payload := by
    rw [← block_add, Nat.add_comm 8, hbytes, List.append_assoc]
    rfl
  obtain ⟨hheader, hpayload⟩ := List.append_inj hsplit (by rw [length_block]; rfl)
  exact ⟨readRecord_eq p.type_lt p.size_lt hheader, hpayload, hrest⟩

/-- The payloads that were written are found, with their headers, in their order. -/
theorem deserializeLoop_records : ∀ (ps : List NvdsCustomPayload) {ptr : ℕ},
    block mem ptr (encode ps).length = encode ps → (encode ps).length < 2 ^ 32 →
      ∃ records, deserializeLoop mem ps.length ptr (encode ps).length = some records ∧
        records.map (Record.data mem) = ps.map (fun p => (p.payloadType, p.payloadSize, p.payload)) ∧
        ∀ r ∈ records, r.ptr + 8 + r.metadataSize ≤ ptr + (encode ps).length
  | [], _, _, _ => ⟨[], rfl, rfl, fun _ h => absurd h List.not_mem_nil⟩
  | p :: ps, ptr, h, hlt => by
    rw [length_encode_cons] at h hlt ⊢
    rw [encode_cons] at h
    obtain ⟨hread, hpayload, hrest⟩ := readRecord_bytes h
    obtain ⟨records, hloop, hdata, hin⟩ := deserializeLoop_records ps hrest (by omega)
    have hadvance : wrapAdd 32 p.payloadSize 8 = p.payloadSize + 8 := wrapAdd_of_lt (by omega)
    have hleft : wrapSub 32 (p.payloadSize + 8 + (encode ps).length) (p.payloadSize + 8) = (encode ps).length := by
      rw [wrapSub_of_le (by omega) hlt, Nat.add_sub_cancel_left]
    refine ⟨⟨p.payloadType, p.payloadSize, ptr⟩ :: records, ?_, ?_, ?_⟩
    · rw [List.length_cons, deserializeLoop, if_neg (by omega)]
      dsimp only
      rw [hread, hadvance, hleft, hloop]
      rfl
    · rw [List.map_cons, List.map_cons, hdata, Record.data, hpayload]
    · intro r hr
      rcases List.mem_cons.mp hr with rfl | hr
      · show ptr + 8 + p.payloadSize ≤ _
        omega
      · have := hin r hr
        omega

/-- What is at `ptr`, as a payload. -/
def payloadAt (mem : ℕ → UInt8) (ptr : ℕ) : NvdsCustomPayload where
  payloadType := (readRecord mem ptr).metadataType
  payload := block mem (ptr + 8) (readRecord mem ptr).metadataSize
  type_lt := word_lt _ _ _ _
  size_lt := by
    rw [length_block]
    exact word_lt _ _ _ _

theorem block_payloadAt (mem : ℕ → UInt8) (ptr : ℕ) :
    block mem ptr ((readRecord mem ptr).metadataSize + 8) = (payloadAt mem ptr).bytes := by
  have htype : le32 (readRecord mem ptr).metadataType = block mem ptr 4 := le32_word _ _ _ _
  have hsize : le32 (readRecord mem ptr).metadataSize = block mem (ptr + 4) 4 := le32_word _ _ _ _
  unfold NvdsCustomPayload.bytes NvdsCustomPayload.payloadSize payloadAt
  dsimp only
  rw [length_block, htype, hsize, ← List.append_assoc, ← block_add mem ptr 4 4, ← block_add mem ptr 8, Nat.add_comm 8]

/-- A loop that stays within the bytes goes over payloads that someone could have sent. -/
theorem exists_payloads : ∀ (fuel : ℕ) {ptr total : ℕ} {records : List Record}, total < 2 ^ 32 →
    deserializeLoop mem fuel ptr total = some records →
      (∀ r ∈ records, r.ptr + 8 + r.metadataSize ≤ ptr + total) → ∃ ps, block mem ptr total = encode ps
  | fuel, ptr, 0, _, _, _, _ => ⟨[], rfl⟩
  | 0, ptr, total + 1, _, _, h, _ => by
    rw [deserializeLoop, if_neg (Nat.succ_ne_zero total)] at h
    simp at h
  | fuel + 1, ptr, total + 1, records, hlt, h, hin => by
    rw [deserializeLoop, if_neg (Nat.succ_ne_zero total)] at h
    obtain ⟨records', hloop, rfl⟩ := Option.map_eq_some_iff.mp h
    have hfirst : ptr + 8 + (readRecord mem ptr).metadataSize ≤ ptr + (total + 1) := hin _ List.mem_cons_self
    have hadvance : wrapAdd 32 (readRecord mem ptr).metadataSize 8 = (readRecord mem ptr).metadataSize + 8 :=
      wrapAdd_of_lt (by omega)
    rw [hadvance, wrapSub_of_le (by omega) hlt] at hloop
    obtain ⟨ps, hps⟩ := exists_payloads fuel (by omega) hloop fun r hr => by
      have := hin r (List.mem_cons_of_mem _ hr)
      omega
    refine ⟨payloadAt mem ptr :: ps, ?_⟩
    rw [encode_cons, ← block_payloadAt, ← hps, ← block_add]
    congr 1
    omega

/-- **What is sent comes back exactly if its bytes can be counted in 32 bits, and what is received is
read within its size exactly if it is what could have been sent.** -/
theorem sei_coding (beyond : ℕ → UInt8) (frameMetaList : List NvDsFrameMeta) (seiMeta : GstVideoSeiMeta) :
    (RoundTrips beyond frameMetaList ↔ ((payloads frameMetaList).map fun p => p.payloadSize + 8).sum < 2 ^ 32) ∧
    (SafelyDecodes seiMeta ↔ ∃ ps, block seiMeta.seiMetadataPtr 0 seiMeta.seiMetadataSize = encode ps) := by
  constructor
  · rw [← length_encode]
    constructor
    · rintro ⟨seiMeta, hserialize, -⟩
      exact length_encode_lt hserialize
    · intro hlt
      have hblock := block_getD (encode (payloads frameMetaList)) beyond []
      obtain ⟨records, hloop, hdata, -⟩ := deserializeLoop_records (payloads frameMetaList) hblock hlt
      refine ⟨_, serializeData_eq hlt beyond, (payloads frameMetaList).length, records, ?_, hdata⟩
      dsimp only [deserializeData]
      rw [if_pos rfl]
      exact hloop
  · constructor
    · rintro ⟨fuel, records, hloop, hin⟩
      exact exists_payloads fuel seiMeta.size_lt hloop (by simpa using hin)
    · rintro ⟨ps, hps⟩
      have hlen : (encode ps).length = seiMeta.seiMetadataSize := by
        rw [← hps, length_block]
      rw [← hlen] at hps
      obtain ⟨records, hloop, -, hin⟩ := deserializeLoop_records ps hps (hlen ▸ seiMeta.size_lt)
      rw [hlen] at hloop hin
      exact ⟨ps.length, records, hloop, by simpa using hin⟩

/-- A record of 8 bytes whose size field is `2 ^ 32 - 8`: each round goes on by nothing. -/
def stuckMeta : GstVideoSeiMeta where
  seiMetadataType := gstUserSeiMeta
  seiMetadataSize := 8
  seiMetadataPtr := fun i => if i = 4 then 0xf8 else if i < 4 then 0 else 0xff
  size_lt := by norm_num

/-- The loop does not end, whatever the number of rounds. -/
theorem stuckMeta_unsafe : (∀ fuel, deserializeData fuel (some stuckMeta) = none) ∧ ¬ SafelyDecodes stuckMeta := by
  have hloop : ∀ fuel, deserializeLoop stuckMeta.seiMetadataPtr fuel 0 8 = none := by
    intro fuel
    induction fuel with
    | zero => rfl
    | succ fuel ih =>
      rw [deserializeLoop, if_neg (by decide)]
      exact congrArg (Option.map _) ih
  refine ⟨hloop, ?_⟩
  rintro ⟨fuel, records, h, -⟩
  exact absurd (h.symm.trans (hloop fuel)) (by simp)

end Sei
end MetaUtils
end DeepStream
