/-
# The layout of a batch

The network is told the order of the dimensions of its input: batch, sequence,
channels, height and width for one of five, and for one of four dimensions batch,
the planes of all channels one after the other, height and width. The pictures of
a sequence are written plane by plane. The two agree only for some shapes.
-/
import DeepStream.Sequence.BufferManager

namespace DeepStream
namespace Sequence
namespace SequenceConfig

variable {α : Type*} {cfg : SequenceConfig} {n start k c y x a : ℕ}

/-! ### The two orders -/

/-- Where the network looks for a pixel: the planes of a 2D network are those of the
first channel, then those of the second. -/
def coords (cfg : SequenceConfig) (n k c y x : ℕ) : List ℕ :=
  if cfg.params.networkInputShape.length = 5 then [n, k, c, y, x] else [n, c * cfg.seqSize + k, y, x]

/-- The element of the tensor that the pixel is. -/
def declared (cfg : SequenceConfig) (n k c y x : ℕ) : ℕ :=
  RowMajor.index (cfg.params.networkInputShape.map toUint32) (cfg.coords n k c y x)

/-- The byte `a` of the batch gets the pixel of the `k`-th frame of the `n`-th
sequence, when it is copied from a ring that starts in slot `start`. -/
def StoredAt (α : Type*) (cfg : SequenceConfig) (n start k c y x a : ℕ) : Prop :=
  ∀ (src : Ptr) (dst : ℕ), dst ≠ src.buf → ∃ o,
    (∀ (value : ℕ → ℕ → ℕ → α) m, preprocessNCDHW value cfg.channels cfg.height cfg.width cfg.seqSize
      (src.add ((start + k) % cfg.seqSize * cfg.hwBytes)) m (src.add o) = value c y x) ∧
    ∀ m : Memory α, copySequence cfg ⟨dst, n * cfg.perBatchBytes % 2 ^ 32⟩ src start m ⟨dst, a⟩ = m (src.add o)

/-- Every pixel is where the declared order has it, two sequences and two frames
do not overlap, and the pixels fill the tensor. -/
structure Layout (α : Type*) (cfg : SequenceConfig) : Prop where
  elem : cfg.params.dataType.size = 4
  position : ∀ n < cfg.maxBatch, ∀ k < cfg.seqSize, ∀ c < cfg.channels, ∀ y < cfg.height, ∀ x < cfg.width,
    ∀ start < cfg.seqSize, StoredAt α cfg n start k c y x (4 * cfg.declared n k c y x)
  apart : ∀ n < cfg.maxBatch, ∀ n' < cfg.maxBatch, ∀ k < cfg.seqSize, ∀ k' < cfg.seqSize, (n, k) ≠ (n', k') →
    ∀ c < cfg.channels, ∀ c' < cfg.channels, ∀ y < cfg.height, ∀ y' < cfg.height, ∀ x < cfg.width, ∀ x' < cfg.width,
      cfg.declared n k c y x ≠ cfg.declared n' k' c' y' x'
  total : cfg.maxBatch * (cfg.seqSize * cfg.channels * cfg.height * cfg.width) * 4 =
    (cfg.params.networkInputShape.map toUint32).prod * cfg.params.dataType.size

/-- A shape that the order of the planes does not matter for, and that 32 bits are
enough for. -/
structure Ordered (cfg : SequenceConfig) : Prop where
  elem : cfg.params.dataType.size = 4
  bytes_lt : cfg.seqSize * cfg.channels * cfg.height * cfg.width * 4 < 2 ^ 32
  last_lt : (cfg.maxBatch - 1) * (cfg.seqSize * cfg.channels * cfg.height * cfg.width * 4) < 2 ^ 32
  order : if cfg.params.networkInputShape.length = 5 then cfg.seqSize = 1 ∨ cfg.channels = 1
    else toUint32 (cfg.params.networkInputShape.getD 1 0) = cfg.height

/-! ### Where the code puts a pixel -/

theorem mul_hwBytes_le (cfg : SequenceConfig) : cfg.seqSize * cfg.hwBytes ≤ cfg.shwBytes := by
  have hcomm : cfg.hwBytes = cfg.shwBytes / cfg.seqSize := by
    rw [hwBytes, shwBytes, Nat.div_div_eq_div_mul, Nat.div_div_eq_div_mul, Nat.mul_comm]
  rw [hcomm]
  exact Nat.mul_div_le _ _

section
variable {src : Ptr} {dst : ℕ}

/-- A ring that starts in its first slot is copied as it is, as far as the planes
go. -/
theorem copyChannels_start (hbuf : dst ≠ src.buf) (d : ℕ) :
    ∀ n, (∀ m : Memory α, ∀ p : Ptr, p.buf = src.buf →
        (List.range n).foldl (fun m i => copyChannel cfg ⟨dst, d⟩ src 0 i m) m p = m p) ∧
      ((∀ m : Memory α,
          (List.range n).foldl (fun m i => copyChannel cfg ⟨dst, d⟩ src 0 i m) m ⟨dst, a⟩ = m ⟨dst, a⟩) ∨
        (d ≤ a ∧ a < d + n * cfg.shwBytes ∧ ∀ m : Memory α,
          (List.range n).foldl (fun m i => copyChannel cfg ⟨dst, d⟩ src 0 i m) m ⟨dst, a⟩ = m (src.add (a - d))))
  | 0 => ⟨fun _ _ _ => rfl, .inl fun _ => rfl⟩
  | n + 1 => by
    obtain ⟨hsrc, hdst⟩ := copyChannels_start hbuf d n
    have hlast : ∀ m : Memory α, copyChannel cfg ⟨dst, d⟩ src 0 n m =
        m.memcpy ⟨dst, d + n * cfg.shwBytes⟩ (src.add (n * cfg.shwBytes)) (cfg.seqSize * cfg.hwBytes) := by
      intro m
      simp [copyChannel, Ptr.add]
    have hle := mul_hwBytes_le cfg
    have hnext : (n + 1) * cfg.shwBytes = n * cfg.shwBytes + cfg.shwBytes := by ring
    simp only [List.range_succ, List.foldl_append, List.foldl_cons, List.foldl_nil, hlast]
    refine ⟨fun m p hp => ?_, ?_⟩
    · rw [Memory.memcpy_of_buf_ne (fun heq => hbuf (heq.symm.trans hp)), hsrc m p hp]
    · by_cases hin : d + n * cfg.shwBytes ≤ a ∧ a < d + n * cfg.shwBytes + cfg.seqSize * cfg.hwBytes
      · right
        refine ⟨by omega, by omega, fun m => ?_⟩
        have hplace : (⟨dst, a⟩ : Ptr) = (⟨dst, d + n * cfg.shwBytes⟩ : Ptr).add (a - (d + n * cfg.shwBytes)) := by
          simp only [Ptr.add, Ptr.mk.injEq, true_and]
          omega
        have hread := hsrc m (src.add (n * cfg.shwBytes + (a - (d + n * cfg.shwBytes)))) rfl
        rw [hplace, Memory.memcpy_apply (by omega), Ptr.add_add, hread,
          show n * cfg.shwBytes + (a - (d + n * cfg.shwBytes)) = a - d by omega]
      · have hkept : ∀ m : Memory α, m.memcpy ⟨dst, d + n * cfg.shwBytes⟩ (src.add (n * cfg.shwBytes))
            (cfg.seqSize * cfg.hwBytes) ⟨dst, a⟩ = m ⟨dst, a⟩ := fun m =>
          Memory.memcpy_of_off (by simp only; omega)
        rcases hdst with hold | ⟨hd, ha, hcopied⟩
        · exact .inl fun m => (hkept _).trans (hold m)
        · exact .inr ⟨hd, by omega, fun m => (hkept _).trans (hcopied m)⟩

/-- The byte of the ring that a byte of the batch comes from. -/
theorem of_copySequence [Nontrivial α] (hbuf : dst ≠ src.buf) {d o : ℕ}
    (h : ∀ m : Memory α, copySequence cfg ⟨dst, d⟩ src 0 m ⟨dst, a⟩ = m (src.add o)) :
    d + o = a ∧ a < d + cfg.channels * cfg.shwBytes := by
  obtain ⟨u, v, huv⟩ := exists_pair_ne α
  -- a memory that has another value there than anywhere else
  have hpoint : ∀ {p q : Ptr}, (∀ m : Memory α, m p = m q) → p = q := by
    intro p q hpq
    by_contra hne
    have hval := hpq fun r => if r = p then u else v
    simp only [↓reduceIte, if_neg (Ne.symm hne)] at hval
    exact huv hval
  rcases (copyChannels_start (α := α) (a := a) hbuf d cfg.channels).2 with hkept | ⟨hd, ha, hcopied⟩
  · have heq := hpoint fun m => (hkept m).symm.trans (h m)
    exact absurd (congrArg Ptr.buf heq) hbuf
  · have heq := hpoint fun m => (hcopied m).symm.trans (h m)
    have hoff : src.off + (a - d) = src.off + o := congrArg Ptr.off heq
    exact ⟨by omega, ha⟩

/-- The byte of the ring that the kernel puts a pixel at. -/
theorem of_preprocessNCDHW [Nontrivial α] {base o : ℕ} {p : Ptr}
    (h : ∀ (value : ℕ → ℕ → ℕ → α) m, preprocessNCDHW value cfg.channels cfg.height cfg.width cfg.seqSize (p.add base) m
      (p.add o) = value c y x) :
    ∃ i, o = base + 4 * ((c * i + y * cfg.width + x) % 2 ^ 32) ∧
      i = cfg.seqSize * (cfg.height * cfg.width % 2 ^ 32) % 2 ^ 32 := by
  obtain ⟨u, v, huv⟩ := exists_pair_ne α
  refine ⟨_, ?_, rfl⟩
  have hval := h (fun c' y' x' => if c' = c ∧ y' = y ∧ x' = x then u else v) fun _ => v
  simp only [and_self, ↓reduceIte] at hval
  unfold preprocessNCDHW imageHWCToCSHW at hval
  rcases Memory.scatter_cases _ _ with hold | ⟨t, -, haddr, ht⟩
  · exact absurd (hval.symm.trans hold) huv
  · rw [hval] at ht
    simp only at ht
    split at ht
    · rename_i hsame
      obtain ⟨rfl, rfl, rfl⟩ := hsame
      have hoff := congrArg Ptr.off haddr
      simp only [Ptr.add_off] at hoff
      omega
    · exact absurd ht huv

end

/-! ### When the orders agree -/

theorem toUint32_mul (y z : ℤ) : toUint32 (y * z) = toUint32 y * toUint32 z % 2 ^ 32 := by
  have hcast : ∀ z : ℤ, (toUint32 z : ℤ) = z % 2 ^ 32 := fun z => Int.toNat_of_nonneg (Int.emod_nonneg z (by decide))
  have hint : (toUint32 (y * z) : ℤ) = ((toUint32 y * toUint32 z % 2 ^ 32 : ℕ) : ℤ) := by
    rw [hcast, Int.mul_emod]
    push_cast
    rw [hcast, hcast]
    norm_num
  exact_mod_cast hint

/-- What the dimensions are. -/
inductive Shaped (cfg : SequenceConfig) : Prop
  | five (hlen : cfg.params.networkInputShape.length = 5)
      (hdims : cfg.params.networkInputShape.map toUint32 = [cfg.maxBatch, cfg.seqSize, cfg.channels, cfg.height, cfg.width])
      (hsize : cfg.perBatchSize = cfg.seqSize * cfg.channels * cfg.height * cfg.width % 2 ^ 32)
  | four (planes : ℕ) (hlen : ¬ cfg.params.networkInputShape.length = 5)
      (hplanes : toUint32 (cfg.params.networkInputShape.getD 1 0) = planes)
      (hdims : cfg.params.networkInputShape.map toUint32 = [cfg.maxBatch, planes, cfg.height, cfg.width])
      (hheight : cfg.seqSize * cfg.channels = cfg.height)
      (hsize : cfg.perBatchSize = planes * cfg.height * cfg.width % 2 ^ 32)

theorem toUint32_prod (l : List ℤ) : toUint32 l.prod = (l.map toUint32).prod % 2 ^ 32 := by
  induction l with
  | nil => rfl
  | cons z l ih => rw [List.prod_cons, toUint32_mul, ih, Nat.mul_mod_mod, List.map_cons, List.prod_cons]

theorem shaped_of_init {params : NvDsPreProcessTensorParams} {seqStride subsample : ℕ}
    (h : init params seqStride subsample = .ok cfg) : cfg.Shaped := by
  obtain ⟨hv, rfl, -, -, -, hmax, hheight, hwidth, hseq, hsize, hlen⟩ := of_init h
  rw [toUint32_prod] at hsize
  unfold seqSizeOf at hseq
  rcases hlen with hlen | hlen
  · have hfive := hlen
    obtain ⟨d0, d1, d2, d3, d4, hshape⟩ : ∃ d0 d1 d2 d3 d4, cfg.params.networkInputShape = [d0, d1, d2, d3, d4] := by
      match cfg.params.networkInputShape, hlen with
      | [d0, d1, d2, d3, d4], _ => exact ⟨d0, d1, d2, d3, d4, rfl⟩
    rw [if_pos hlen] at hseq
    rw [hshape] at hmax hheight hwidth hseq hsize
    split at hseq
    · cases hseq
    · rename_i hchannels
      split at hseq
      · have hsize' := Except.ok.inj hseq
        have hchannels : cfg.channels = toUint32 d2 := not_not.mp hchannels
        have hmax : cfg.maxBatch = toUint32 d0 := hmax
        have hheight : cfg.height = toUint32 d3 := hheight
        have hwidth : cfg.width = toUint32 d4 := hwidth
        have hseq : toUint32 d1 = cfg.seqSize := hsize'
        refine .five hfive ?_ ?_
        · simp [hshape, hmax, hheight, hwidth, hchannels, hseq]
        · rw [hsize]
          simp only [List.tail_cons, List.map_cons, List.map_nil, List.prod_cons, List.prod_nil, mul_one, hseq,
            ← hchannels, ← hheight, ← hwidth]
          congr 1
          ring
      · cases hseq
  · have hfour : ¬ cfg.params.networkInputShape.length = 5 := by omega
    obtain ⟨d0, d1, d2, d3, hshape⟩ : ∃ d0 d1 d2 d3, cfg.params.networkInputShape = [d0, d1, d2, d3] := by
      match cfg.params.networkInputShape, hlen with
      | [d0, d1, d2, d3], _ => exact ⟨d0, d1, d2, d3, rfl⟩
    rw [if_neg hfour] at hseq
    rw [hshape] at hmax hheight hwidth hseq hsize
    split at hseq
    · cases hseq
    · rename_i hdvd
      have hmax : cfg.maxBatch = toUint32 d0 := hmax
      have hheight : cfg.height = toUint32 d2 := hheight
      have hwidth : cfg.width = toUint32 d3 := hwidth
      have hdiv : cfg.height / cfg.channels = cfg.seqSize := hheight ▸ Except.ok.inj hseq
      have hdvd : cfg.height % cfg.channels = 0 := hheight ▸ not_not.mp hdvd
      refine .four (toUint32 d1) hfour (by rw [hshape]; rfl) ?_ ?_ ?_
      · simp [hshape, hmax, hheight, hwidth]
      · rw [← hdiv]
        exact Nat.div_mul_cancel (Nat.dvd_of_mod_eq_zero hdvd)
      · rw [hsize]
        simp only [List.tail_cons, List.map_cons, List.map_nil, List.prod_cons, List.prod_nil, mul_one, ← hheight,
          ← hwidth]
        congr 1
        ring

theorem declared_five (hlen : cfg.params.networkInputShape.length = 5)
    (hdims : cfg.params.networkInputShape.map toUint32 = [cfg.maxBatch, cfg.seqSize, cfg.channels, cfg.height, cfg.width]) :
    cfg.declared n k c y x = (((n * cfg.seqSize + k) * cfg.channels + c) * cfg.height + y) * cfg.width + x := by
  rw [declared, coords, if_pos hlen, hdims]
  simp [RowMajor.index]

theorem declared_four {planes : ℕ} (hlen : ¬ cfg.params.networkInputShape.length = 5)
    (hdims : cfg.params.networkInputShape.map toUint32 = [cfg.maxBatch, planes, cfg.height, cfg.width]) :
    cfg.declared n k c y x = ((n * planes + (c * cfg.seqSize + k)) * cfg.height + y) * cfg.width + x := by
  rw [declared, coords, if_neg hlen, hdims]
  simp [RowMajor.index]

namespace Ordered

theorem regular (h : cfg.Ordered) (hs : cfg.Shaped) : cfg.Regular := by
  have hlt := h.bytes_lt
  have horder := h.order
  have hsize : cfg.perBatchSize = cfg.seqSize * cfg.channels * cfg.height * cfg.width := by
    cases hs with
    | five hlen hdims hsize => rw [hsize, Nat.mod_eq_of_lt (by omega)]
    | four planes hlen hplanes hdims hheight hsize =>
      rw [if_neg hlen, hplanes] at horder
      rw [hsize, horder, hheight, Nat.mod_eq_of_lt]
      rw [hheight] at hlt
      omega
  exact ⟨hsize, hsize ▸ hlt, h.elem⟩

/-- The two orders give a pixel the same place. -/
theorem declared_eq (h : cfg.Ordered) (hs : cfg.Shaped) (hv : cfg.Valid) (hk : k < cfg.seqSize) (hc : c < cfg.channels) :
    4 * cfg.declared n k c y x = n * cfg.perBatchBytes + cfg.place c k y x := by
  have hreg := h.regular hs
  have horder := h.order
  rw [hreg.perBatchBytes_eq, place, hreg.shwBytes_eq hv, hreg.hwBytes_eq hv]
  cases hs with
  | five hlen hdims hsize =>
    rw [if_pos hlen] at horder
    rw [declared_five hlen hdims]
    rcases horder with hone | hone
    · obtain rfl : k = 0 := by omega
      rw [hone]
      ring
    · obtain rfl : c = 0 := by omega
      rw [hone]
      ring
  | four planes hlen hplanes hdims hheight hsize =>
    rw [if_neg hlen, hplanes] at horder
    rw [declared_four hlen hdims, horder, ← hheight]
    ring

theorem offset_lt (h : cfg.Ordered) (hs : cfg.Shaped) (hn : n < cfg.maxBatch) : n * cfg.perBatchBytes < 2 ^ 32 := by
  have hreg := h.regular hs
  have hbytes : cfg.perBatchBytes = cfg.seqSize * cfg.channels * cfg.height * cfg.width * 4 := by
    rw [perBatchBytes, Nat.mod_eq_of_lt hreg.bytes_lt, hreg.size_eq]
  rw [hbytes]
  calc n * (cfg.seqSize * cfg.channels * cfg.height * cfg.width * 4)
      ≤ (cfg.maxBatch - 1) * (cfg.seqSize * cfg.channels * cfg.height * cfg.width * 4) :=
        Nat.mul_le_mul_right _ (by omega)
    _ < 2 ^ 32 := h.last_lt

theorem storedAt (h : cfg.Ordered) (hs : cfg.Shaped) (hv : cfg.Valid) (hn : n < cfg.maxBatch) (hk : k < cfg.seqSize)
    (hc : c < cfg.channels) (hy : y < cfg.height) (hx : x < cfg.width) (hstart : start < cfg.seqSize) :
    StoredAt α cfg n start k c y x (4 * cfg.declared n k c y x) := by
  have hreg := h.regular hs
  intro src dst hbuf
  refine ⟨cfg.place c ((start + k) % cfg.seqSize) y x, fun value m => preprocessNCDHW_apply hreg hv hc hy hx, fun m => ?_⟩
  rw [Nat.mod_eq_of_lt (h.offset_lt hs hn), h.declared_eq hs hv hk hc]
  show copySequence cfg ⟨dst, _⟩ src start m ((⟨dst, n * cfg.perBatchBytes⟩ : Ptr).add (cfg.place c k y x)) = _
  exact copySequence_apply hreg hv hbuf hstart hc hk hy hx

theorem layout (h : cfg.Ordered) (hs : cfg.Shaped) (hv : cfg.Valid) : cfg.Layout α := by
  have horder := h.order
  refine ⟨h.elem, fun n hn k hk c hc y hy x hx start hstart => h.storedAt hs hv hn hk hc hy hx hstart, ?_, ?_⟩
  · intro n hn n' hn' k hk k' hk' hne c hc c' hc' y hy y' hy' x hx x' hx' heq
    unfold declared coords at heq
    cases hs with
    | five hlen hdims hsize =>
      rw [if_pos hlen, if_pos hlen, hdims] at heq
      have hsame := RowMajor.index_inj (.cons hn (.cons hk (.cons hc (.cons hy (.cons hx .nil)))))
        (.cons hn' (.cons hk' (.cons hc' (.cons hy' (.cons hx' .nil))))) heq
      simp only [List.cons.injEq] at hsame
      exact hne (Prod.ext hsame.1 hsame.2.1)
    | four planes hlen hplanes hdims hheight hsize =>
      rw [if_neg hlen, hplanes] at horder
      have hplane : ∀ {c k}, c < cfg.channels → k < cfg.seqSize → c * cfg.seqSize + k < planes := by
        intro c k hc hk
        rw [horder, ← hheight, Nat.mul_comm cfg.seqSize]
        exact RowMajor.lt_mul hc hk
      rw [if_neg hlen, if_neg hlen, hdims] at heq
      have hsame := RowMajor.index_inj (.cons hn (.cons (hplane hc hk) (.cons hy (.cons hx .nil))))
        (.cons hn' (.cons (hplane hc' hk') (.cons hy' (.cons hx' .nil)))) heq
      simp only [List.cons.injEq] at hsame
      exact hne (Prod.ext hsame.1 (RowMajor.inj hk hk' hsame.2.1).2)
  · rw [h.elem]
    cases hs with
    | five hlen hdims hsize =>
      rw [hdims]
      simp only [List.prod_cons, List.prod_nil]
      ring
    | four planes hlen hplanes hdims hheight hsize =>
      rw [if_neg hlen, hplanes] at horder
      rw [hdims, horder, hheight]
      simp only [List.prod_cons, List.prod_nil]
      ring

end Ordered

theorem last_eq {a b m n : ℕ} (ha : a + 1 = m) (hb : 0 < n) (hlast : b = n - 1) : a * n + b + 1 = m * n := by
  obtain ⟨n, rfl⟩ := Nat.exists_eq_succ_of_ne_zero (Nat.ne_of_gt hb)
  subst ha hlast
  show a * (b + 1) + b + 1 = (a + 1) * (b + 1)
  ring

namespace Layout

/-- The whole tensor has the size that its dimensions give it. -/
theorem planes_eq (h : cfg.Layout α) (hv : cfg.Valid) {planes : ℕ}
    (hdims : cfg.params.networkInputShape.map toUint32 = [cfg.maxBatch, planes, cfg.height, cfg.width])
    (hheight : cfg.seqSize * cfg.channels = cfg.height) : planes = cfg.height := by
  have htotal := h.total
  rw [h.elem, hdims, hheight] at htotal
  simp only [List.prod_cons, List.prod_nil] at htotal
  have hpos : 0 < cfg.maxBatch * (cfg.height * cfg.width) * 4 :=
    Nat.mul_pos (Nat.mul_pos hv.maxBatch_pos (Nat.mul_pos hv.height_pos hv.width_pos)) (by omega)
  refine Nat.eq_of_mul_eq_mul_right hpos ?_
  calc planes * (cfg.maxBatch * (cfg.height * cfg.width) * 4) = cfg.maxBatch * (planes * (cfg.height * (cfg.width * 1))) * 4 := by
        ring
    _ = cfg.maxBatch * (cfg.height * cfg.height * cfg.width) * 4 := htotal.symm
    _ = cfg.height * (cfg.maxBatch * (cfg.height * cfg.width) * 4) := by ring

variable [Nontrivial α]

/-- Where the code puts a pixel of a ring that starts in its first slot. -/
theorem offset (h : cfg.Layout α) (hn : n < cfg.maxBatch) (hk : k < cfg.seqSize) (hc : c < cfg.channels)
    (hy : y < cfg.height) (hx : x < cfg.width) :
    (∃ i, n * cfg.perBatchBytes % 2 ^ 32 + (k * cfg.hwBytes + 4 * ((c * i + y * cfg.width + x) % 2 ^ 32)) =
      4 * cfg.declared n k c y x) ∧
    4 * cfg.declared n k c y x < n * cfg.perBatchBytes % 2 ^ 32 + cfg.channels * cfg.shwBytes := by
  have hstart : 0 < cfg.seqSize := by omega
  have hbuf : 1 ≠ (⟨0, 0⟩ : Ptr).buf := Nat.one_ne_zero
  obtain ⟨o, hkernel, hcopy⟩ := h.position n hn k hk c hc y hy x hx 0 hstart ⟨0, 0⟩ 1 hbuf
  obtain ⟨hsum, hlt⟩ := of_copySequence hbuf hcopy
  obtain ⟨i, ho, -⟩ := of_preprocessNCDHW hkernel
  rw [Nat.zero_add, Nat.mod_eq_of_lt hk] at ho
  exact ⟨⟨i, by rw [← ho, hsum]⟩, hlt⟩

/-- The last pixel of a sequence has to be in it. -/
theorem bytes_lt (h : cfg.Layout α) (hs : cfg.Shaped) (hv : cfg.Valid) :
    cfg.seqSize * cfg.channels * cfg.height * cfg.width * 4 < 2 ^ 32 := by
  have hlast := (h.offset hv.maxBatch_pos (Nat.sub_lt hv.seqSize_pos one_pos) (Nat.sub_lt hv.channels_pos one_pos)
    (Nat.sub_lt hv.height_pos one_pos) (Nat.sub_lt hv.width_pos one_pos)).2
  have hall : cfg.channels * cfg.shwBytes ≤ cfg.perBatchSize * 4 % 2 ^ 32 := Nat.mul_div_le _ _
  rw [Nat.zero_mul, Nat.zero_mod, Nat.zero_add] at hlast
  have hseq := hv.seqSize_pos
  cases hs with
  | five hlen hdims hsize =>
    have hend : (((0 * cfg.seqSize + (cfg.seqSize - 1)) * cfg.channels + (cfg.channels - 1)) * cfg.height +
        (cfg.height - 1)) * cfg.width + (cfg.width - 1) + 1 = cfg.seqSize * cfg.channels * cfg.height * cfg.width :=
      last_eq (last_eq (last_eq (by omega) hv.channels_pos rfl) hv.height_pos rfl) hv.width_pos rfl
    rw [declared_five hlen hdims] at hlast
    rw [hsize] at hall
    omega
  | four planes hlen hplanes hdims hheight hsize =>
    have hend : ((0 * planes + ((cfg.channels - 1) * cfg.seqSize + (cfg.seqSize - 1))) * cfg.height +
        (cfg.height - 1)) * cfg.width + (cfg.width - 1) + 1 = cfg.channels * cfg.seqSize * cfg.height * cfg.width := by
      refine last_eq (last_eq ?_ hv.height_pos rfl) hv.width_pos rfl
      have hplane := last_eq (Nat.sub_add_cancel hv.channels_pos) hv.seqSize_pos rfl
      omega
    rw [declared_four hlen hdims] at hlast
    rw [hsize, h.planes_eq hv hdims hheight, ← hheight] at hall
    rw [Nat.mul_comm cfg.channels] at hend
    rw [← hheight] at hlast hend ⊢
    omega

theorem regular (h : cfg.Layout α) (hs : cfg.Shaped) (hv : cfg.Valid) : cfg.Regular := by
  have hlt := h.bytes_lt hs hv
  have hsize : cfg.perBatchSize = cfg.seqSize * cfg.channels * cfg.height * cfg.width := by
    cases hs with
    | five hlen hdims hsize => rw [hsize, Nat.mod_eq_of_lt (by omega)]
    | four planes hlen hplanes hdims hheight hsize =>
      rw [hsize, h.planes_eq hv hdims hheight, hheight, Nat.mod_eq_of_lt]
      rw [hheight] at hlt
      omega
  exact ⟨hsize, hsize ▸ hlt, h.elem⟩

theorem ordered (h : cfg.Layout α) (hs : cfg.Shaped) (hv : cfg.Valid) : cfg.Ordered := by
  have hreg := h.regular hs hv
  have hbytes : cfg.perBatchBytes = cfg.seqSize * cfg.channels * cfg.height * cfg.width * 4 := by
    rw [perBatchBytes, Nat.mod_eq_of_lt hreg.bytes_lt, hreg.size_eq]
  refine ⟨h.elem, h.bytes_lt hs hv, ?_, ?_⟩
  · -- the first pixel of the last sequence
    obtain ⟨i, hfirst⟩ := (h.offset (Nat.sub_lt hv.maxBatch_pos one_pos) hv.seqSize_pos hv.channels_pos hv.height_pos
      hv.width_pos).1
    have hdeclared : 4 * cfg.declared (cfg.maxBatch - 1) 0 0 0 0 = (cfg.maxBatch - 1) * cfg.perBatchBytes := by
      rw [hbytes]
      cases hs with
      | five hlen hdims hsize =>
        rw [declared_five hlen hdims]
        ring
      | four planes hlen hplanes hdims hheight hsize =>
        rw [declared_four hlen hdims, h.planes_eq hv hdims hheight, ← hheight]
        ring
    rw [hdeclared] at hfirst
    simp only [Nat.zero_mul, Nat.zero_mod, Nat.mul_zero, Nat.add_zero] at hfirst
    rw [← hbytes, ← hfirst]
    exact Nat.mod_lt _ (by decide)
  · cases hs with
    | five hlen hdims hsize =>
      rw [if_pos hlen]
      -- the first pixel of the second frame
      by_contra hno
      rw [not_or] at hno
      have hsecond : 1 < cfg.seqSize := by
        have := hv.seqSize_pos
        omega
      obtain ⟨i, hfirst⟩ := (h.offset hv.maxBatch_pos hsecond hv.channels_pos hv.height_pos hv.width_pos).1
      rw [declared_five hlen hdims, hreg.hwBytes_eq hv] at hfirst
      simp only [Nat.zero_mul, Nat.zero_add, Nat.one_mul, Nat.zero_mod, Nat.mul_zero, Nat.add_zero] at hfirst
      have harea : 0 < 4 * (cfg.height * cfg.width) :=
        Nat.mul_pos (by omega) (Nat.mul_pos hv.height_pos hv.width_pos)
      refine hno.2 (Nat.eq_of_mul_eq_mul_right harea ?_)
      calc cfg.channels * (4 * (cfg.height * cfg.width)) = 4 * (cfg.channels * cfg.height * cfg.width) := by ring
        _ = 4 * (cfg.height * cfg.width) := hfirst.symm
        _ = 1 * (4 * (cfg.height * cfg.width)) := (Nat.one_mul _).symm
    | four planes hlen hplanes hdims hheight hsize =>
      rw [if_neg hlen, hplanes]
      exact h.planes_eq hv hdims hheight

end Layout

/-- The pixels are where the network looks for them just when the shape is one
that the order of the planes does not matter for. -/
theorem layout_iff [Nontrivial α] {params : NvDsPreProcessTensorParams} {seqStride subsample : ℕ}
    (hinit : init params seqStride subsample = .ok cfg) : cfg.Layout α ↔ cfg.Ordered := by
  have hs := shaped_of_init hinit
  have hv := (of_init hinit).1
  exact ⟨fun h => h.ordered hs hv, fun h => h.layout hs hv⟩

/-- One gray frame after the other. -/
theorem layout_iff_gray :
    let cfg : SequenceConfig := ⟨⟨[2, 3, 1, 4, 5], .gray, .fp32⟩, 2, 3, 1, 4, 5, 60, 1, 0⟩
    cfg.Layout ℤ :=
  (layout_iff (show init ⟨[2, 3, 1, 4, 5], .gray, .fp32⟩ 1 0 = .ok _ from rfl)).mpr
    ⟨rfl, by decide, by decide, by decide⟩

/-- Two frames of one pixel in three colours. -/
def colours : SequenceConfig := ⟨Sample.params [1, 2, 3, 1, 1], 1, 2, 3, 1, 1, 6, 1, 0⟩

/-- The network looks for the first colour of the second frame where the second
colour of the second frame is. -/
theorem frames_interleaved : init (Sample.params [1, 2, 3, 1, 1]) 1 0 = .ok colours ∧
    ¬ StoredAt ℤ colours 0 0 1 0 0 0 (4 * colours.declared 0 1 0 0 0) ∧ ¬ colours.Layout ℤ := by
  have hplace : ¬ StoredAt ℤ colours 0 0 1 0 0 0 (4 * colours.declared 0 1 0 0 0) := by
    intro h
    obtain ⟨o, hkernel, hcopy⟩ := h ⟨0, 0⟩ 1 Nat.one_ne_zero
    have hsum := (of_copySequence Nat.one_ne_zero hcopy).1
    obtain ⟨i, ho, -⟩ := of_preprocessNCDHW hkernel
    have hdeclared : 4 * colours.declared 0 1 0 0 0 = 12 := rfl
    have hslot : (0 + 1) % colours.seqSize * colours.hwBytes = 4 := rfl
    rw [hdeclared] at hsum
    rw [hslot] at ho
    simp only [Nat.zero_mul, Nat.zero_add, Nat.zero_mod, Nat.mul_zero, Nat.add_zero] at hsum ho
    omega
  exact ⟨rfl, hplace, fun h => hplace (h.position 0 (by decide) 1 (by decide) 0 (by decide) 0 (by decide) 0 (by decide) 0
    (by decide))⟩

end SequenceConfig
end Sequence
end DeepStream
