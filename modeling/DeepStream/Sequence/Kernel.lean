/-
# How pictures get into a sequence and a sequence into a batch

The kernel turns a picture of interleaved channels into one of planes and writes
every plane where the frame's place in the plane's sequence is. A ready sequence
is copied into the batch one plane after the other, from the oldest frame on, in
two pieces where it goes around the end of the ring.
-/
import DeepStream.Lib.Memory
import DeepStream.Lib.RowMajor
import DeepStream.Sequence.Config

namespace DeepStream
namespace Sequence

variable {F α : Type*}

/-- The source of the frame and the rectangle in it. -/
structure NvDsRoiMeta (F : Type*) where
  sourceId : ℕ
  left : F
  top : F
  width : F
  height : F
  deriving DecidableEq, Repr

/-- `bufWidth`, `bufHeight` and `bufPitch` are those of the converted buffer,
`frame` is its memory. -/
structure NvDsPreProcessUnit (F : Type*) where
  frameNum : ℕ
  roiMeta : NvDsRoiMeta F
  bufWidth : ℕ
  bufHeight : ℕ
  bufPitch : ℕ
  frame : ℕ → ℕ

/-- The user's factors and offsets, and how a byte is read as a float. -/
structure Normalization (α : Type*) where
  toFloat : ℕ → α
  scales : ℕ → α
  means : ℕ → α

/-! ### The kernel -/

def kSwapChannels : ℕ → ℕ
  | 0 => 2
  | 1 => 1
  | 2 => 0
  | _ => 3

def inChannel (swapRB : Bool) (i : ℕ) : ℕ := if swapRB then kSwapChannels i else i

/-- The blocks that cover `n` with `threads` threads each. -/
def gridDim (n threads : ℕ) : ℕ := (n + threads - 1) % 2 ^ 32 / threads

/-- The threads of the grid, by channel, column and row. -/
def threads (C W H : ℕ) : List (ℕ × ℕ × ℕ) :=
  (List.range C).product ((List.range (gridDim W 16 * 16)).product (List.range (gridDim H 8 * 8)))

section
variable [Zero α] [Add α] [Mul α] [Neg α] (norm : Normalization α)

/-- The normalized value that a thread computes. -/
def pixel (swapRB : Bool) (inC inRowPitch : ℕ) (frame : ℕ → ℕ) (c h w : ℕ) : α :=
  let inIdx := (h * inRowPitch + w * inC + inChannel swapRB c) % 2 ^ 32
  let inData := if c < inC then norm.toFloat (frame inIdx) else 0
  inData * norm.scales c + -norm.scales c * norm.means c

end

/-- The threads outside of the picture return at once; an element of the output
has four bytes. -/
def imageHWCToCSHW (value : ℕ → ℕ → ℕ → α) (C H W SHW : ℕ) (out : Ptr) (m : Memory α) : Memory α :=
  Memory.scatter (fun t => out.add (4 * ((t.1 * SHW + t.2.2 * W + t.2.1) % 2 ^ 32)))
    (fun t => value t.1 t.2.2 t.2.1) ((threads C W H).filter fun t => t.2.1 < W ∧ t.2.2 < H) m

def preprocessNCDHW (value : ℕ → ℕ → ℕ → α) (outC H W S : ℕ) (outPtr : Ptr) (m : Memory α) : Memory α :=
  imageHWCToCSHW value outC H W (S * (H * W % 2 ^ 32) % 2 ^ 32) outPtr m

/-! ### The copies -/

variable (cfg : SequenceConfig)

/-- The plane `i` of a sequence that starts in slot `startSeqIdx`. -/
def copyChannel (dst src : Ptr) (startSeqIdx i : ℕ) (m : Memory α) : Memory α :=
  let segment := cfg.seqSize - startSeqIdx
  let offsetC := i * cfg.shwBytes
  let m := m.memcpy (dst.add offsetC) (src.add (offsetC + startSeqIdx * cfg.hwBytes)) (segment * cfg.hwBytes)
  if segment < cfg.seqSize then
    m.memcpy (dst.add (offsetC + segment * cfg.hwBytes)) (src.add offsetC) ((cfg.seqSize - segment) * cfg.hwBytes)
  else m

/-- None of the products gets to the bytes of a sequence. -/
def copySequence (dst src : Ptr) (startSeqIdx : ℕ) (m : Memory α) : Memory α :=
  (List.range cfg.channels).foldl (fun m i => copyChannel cfg dst src startSeqIdx i m) m

/-! ### Where the pictures are -/

theorem le_gridDim {n threads : ℕ} (ht : 0 < threads) (hn : n + threads ≤ 2 ^ 32) :
    n ≤ gridDim n threads * threads := by
  unfold gridDim
  rw [Nat.mod_eq_of_lt (by omega)]
  have hlt : (n + threads - 1) % threads < threads := Nat.mod_lt _ ht
  have hdiv := Nat.div_add_mod (n + threads - 1) threads
  rw [Nat.mul_comm] at hdiv
  omega

theorem mem_threads {C W H c w h : ℕ} (hC : c < C) (hW : w < W) (hH : h < H) (hW' : W + 16 ≤ 2 ^ 32)
    (hH' : H + 8 ≤ 2 ^ 32) : (c, w, h) ∈ (threads C W H).filter fun t => t.2.1 < W ∧ t.2.2 < H := by
  have hw := le_gridDim (by omega) hW'
  have hh := le_gridDim (by omega) hH'
  refine List.mem_filter.mpr ⟨?_, by simpa using ⟨hW, hH⟩⟩
  exact List.pair_mem_product.mpr ⟨List.mem_range.mpr hC,
    List.pair_mem_product.mpr ⟨List.mem_range.mpr (by omega), List.mem_range.mpr (by omega)⟩⟩

theorem lt_of_mem_threads {C W H : ℕ} {t : ℕ × ℕ × ℕ}
    (ht : t ∈ (threads C W H).filter fun t => t.2.1 < W ∧ t.2.2 < H) : t.1 < C ∧ t.2.1 < W ∧ t.2.2 < H := by
  obtain ⟨c, w, h⟩ := t
  obtain ⟨hall, hin⟩ := List.mem_filter.mp ht
  exact ⟨List.mem_range.mp (List.pair_mem_product.mp hall).1, by simpa using hin⟩

/-- The planes of a picture are apart, and so are the pixels of a plane. -/
theorem index_inj {W H SHW c c' h h' w w' : ℕ} (hSHW : H * W ≤ SHW) (hh : h < H) (hh' : h' < H) (hw : w < W)
    (hw' : w' < W) (heq : c * SHW + (h * W + w) = c' * SHW + (h' * W + w')) : c = c' ∧ h = h' ∧ w = w' := by
  have hplane : ∀ {h w : ℕ}, h < H → w < W → h * W + w < SHW := fun hh hw =>
    Nat.lt_of_lt_of_le (RowMajor.lt_mul hh hw) hSHW
  obtain ⟨hc, hrest⟩ := RowMajor.inj (hplane hh hw) (hplane hh' hw') heq
  exact ⟨hc, RowMajor.inj hw hw' hrest⟩

section
variable {value : ℕ → ℕ → ℕ → α} {C H W SHW : ℕ} {out p : Ptr} {m : Memory α}

/-- The kernel puts every plane `SHW` elements after the one before. -/
theorem imageHWCToCSHW_apply (hSHW : H * W ≤ SHW) (hlt : C * SHW ≤ 2 ^ 32) (hW : W + 16 ≤ 2 ^ 32)
    (hH : H + 8 ≤ 2 ^ 32) {c h w : ℕ} (hc : c < C) (hh : h < H) (hw : w < W) :
    imageHWCToCSHW value C H W SHW out m (out.add (4 * (c * SHW + (h * W + w)))) = value c h w := by
  have hidx : ∀ {c h w : ℕ}, c < C → h < H → w < W →
      (c * SHW + h * W + w) % 2 ^ 32 = c * SHW + (h * W + w) := by
    intro c h w hc hh hw
    have hplane : h * W + w < SHW := Nat.lt_of_lt_of_le (RowMajor.lt_mul hh hw) hSHW
    have hall := RowMajor.lt_mul hc hplane
    rw [Nat.mod_eq_of_lt (by omega), Nat.add_assoc]
  have hmem := mem_threads hc hw hh hW hH
  unfold imageHWCToCSHW
  rw [← hidx hc hh hw]
  refine Memory.scatter_apply (i := (c, w, h)) ?_ hmem
  intro t ht t' ht' heq
  obtain ⟨hc1, hw1, hh1⟩ := lt_of_mem_threads ht
  obtain ⟨hc2, hw2, hh2⟩ := lt_of_mem_threads ht'
  rw [hidx hc1 hh1 hw1, hidx hc2 hh2 hw2] at heq
  have hoff := congrArg Ptr.off heq
  simp only [Ptr.add_off] at hoff
  have hsame : t.1 * SHW + (t.2.2 * W + t.2.1) = t'.1 * SHW + (t'.2.2 * W + t'.2.1) := by omega
  obtain ⟨h1, h2, h3⟩ := index_inj hSHW hh1 hh2 hw1 hw2 hsame
  exact Prod.ext h1 (Prod.ext h3 h2)

/-- It leaves alone what is no pixel's place. -/
theorem imageHWCToCSHW_of_ne (hSHW : H * W ≤ SHW) (hlt : C * SHW ≤ 2 ^ 32)
    (hp : ∀ c < C, ∀ h < H, ∀ w < W, p ≠ out.add (4 * (c * SHW + (h * W + w)))) :
    imageHWCToCSHW value C H W SHW out m p = m p := by
  refine Memory.scatter_of_ne fun t ht heq => ?_
  obtain ⟨hc, hw, hh⟩ := lt_of_mem_threads ht
  have hplane : t.2.2 * W + t.2.1 < SHW := Nat.lt_of_lt_of_le (RowMajor.lt_mul hh hw) hSHW
  have hall := RowMajor.lt_mul hc hplane
  rw [Nat.mod_eq_of_lt (by omega), Nat.add_assoc] at heq
  exact hp _ hc _ hh _ hw heq.symm

end

namespace SequenceConfig

variable (cfg : SequenceConfig)

/-- Where the pixel of slot `k` is in the region of a sequence, in bytes. -/
def place (c k y x : ℕ) : ℕ := c * cfg.shwBytes + (k * cfg.hwBytes + 4 * (y * cfg.width + x))

variable {cfg} {c c' k k' y y' x x' : ℕ}

namespace Regular

theorem pixel_lt (h : cfg.Regular) (hv : cfg.Valid) (hy : y < cfg.height) (hx : x < cfg.width) :
    4 * (y * cfg.width + x) < cfg.hwBytes := by
  have hlt := RowMajor.lt_mul hy hx
  rw [h.hwBytes_eq hv]
  omega

theorem slot_lt (h : cfg.Regular) (hv : cfg.Valid) (hk : k < cfg.seqSize) (hy : y < cfg.height) (hx : x < cfg.width) :
    k * cfg.hwBytes + 4 * (y * cfg.width + x) < cfg.shwBytes := by
  rw [(h.perBatchBytes_eq_mul hv).2]
  exact RowMajor.lt_mul hk (h.pixel_lt hv hy hx)

theorem place_lt (h : cfg.Regular) (hv : cfg.Valid) (hc : c < cfg.channels) (hk : k < cfg.seqSize)
    (hy : y < cfg.height) (hx : x < cfg.width) : cfg.place c k y x < cfg.perBatchBytes := by
  rw [(h.perBatchBytes_eq_mul hv).1]
  exact RowMajor.lt_mul hc (h.slot_lt hv hk hy hx)

/-- No two slots share a place. -/
theorem place_inj (h : cfg.Regular) (hv : cfg.Valid) (hk : k < cfg.seqSize) (hk' : k' < cfg.seqSize)
    (hy : y < cfg.height) (hy' : y' < cfg.height) (hx : x < cfg.width) (hx' : x' < cfg.width)
    (heq : cfg.place c k y x = cfg.place c' k' y' x') : c = c' ∧ k = k' ∧ y = y' ∧ x = x' := by
  obtain ⟨hc, hplane⟩ := RowMajor.inj (h.slot_lt hv hk hy hx) (h.slot_lt hv hk' hy' hx') heq
  obtain ⟨hslot, hpixel⟩ := RowMajor.inj (h.pixel_lt hv hy hx) (h.pixel_lt hv hy' hx') hplane
  exact ⟨hc, hslot, RowMajor.inj hx hx' (by omega)⟩

theorem lt_two_pow (h : cfg.Regular) (hv : cfg.Valid) :
    cfg.channels * (cfg.seqSize * (cfg.height * cfg.width)) < 2 ^ 30 ∧ cfg.seqSize * (cfg.height * cfg.width) < 2 ^ 30 ∧
      cfg.height * cfg.width < 2 ^ 30 ∧ cfg.height < 2 ^ 30 ∧ cfg.width < 2 ^ 30 := by
  have hall : cfg.channels * (cfg.seqSize * (cfg.height * cfg.width)) < 2 ^ 30 := by
    have heq : cfg.perBatchSize = cfg.channels * (cfg.seqSize * (cfg.height * cfg.width)) := by
      rw [h.size_eq]
      ring
    have hlt := h.bytes_lt
    omega
  have h1 := Nat.le_mul_of_pos_left (cfg.seqSize * (cfg.height * cfg.width)) hv.channels_pos
  have h2 := Nat.le_mul_of_pos_left (cfg.height * cfg.width) hv.seqSize_pos
  have h3 := Nat.le_mul_of_pos_right cfg.height hv.width_pos
  have h4 := Nat.le_mul_of_pos_left cfg.width hv.height_pos
  exact ⟨hall, by omega, by omega, by omega, by omega⟩

end Regular
end SequenceConfig

section
variable {cfg} {value : ℕ → ℕ → ℕ → α} {base dst src p : Ptr} {m : Memory α} {k start c y x : ℕ}

/-- The kernel's place of a pixel. -/
theorem place_eq (h : cfg.Regular) (hv : cfg.Valid) (c k y x : ℕ) :
    cfg.place c k y x =
      k * cfg.hwBytes + 4 * (c * (cfg.seqSize * (cfg.height * cfg.width)) + (y * cfg.width + x)) := by
  rw [SequenceConfig.place, h.shwBytes_eq hv]
  ring

/-- A picture is put where its slot is. -/
theorem preprocessNCDHW_apply (h : cfg.Regular) (hv : cfg.Valid) (hc : c < cfg.channels) (hy : y < cfg.height)
    (hx : x < cfg.width) :
    preprocessNCDHW value cfg.channels cfg.height cfg.width cfg.seqSize (base.add (k * cfg.hwBytes)) m
      (base.add (cfg.place c k y x)) = value c y x := by
  obtain ⟨h1, h2, h3, h4, h5⟩ := h.lt_two_pow hv
  rw [preprocessNCDHW, Nat.mod_eq_of_lt (a := cfg.height * cfg.width) (by omega), Nat.mod_eq_of_lt (by omega),
    place_eq h hv, ← Ptr.add_add]
  exact imageHWCToCSHW_apply (Nat.le_mul_of_pos_left _ hv.seqSize_pos) (by omega) (by omega) (by omega) hc hy hx

/-- No other place is written. -/
theorem preprocessNCDHW_of_ne (h : cfg.Regular) (hv : cfg.Valid)
    (hp : ∀ c < cfg.channels, ∀ y < cfg.height, ∀ x < cfg.width, p ≠ base.add (cfg.place c k y x)) :
    preprocessNCDHW value cfg.channels cfg.height cfg.width cfg.seqSize (base.add (k * cfg.hwBytes)) m p = m p := by
  obtain ⟨h1, h2, h3, h4, h5⟩ := h.lt_two_pow hv
  rw [preprocessNCDHW, Nat.mod_eq_of_lt (a := cfg.height * cfg.width) (by omega), Nat.mod_eq_of_lt (by omega)]
  refine imageHWCToCSHW_of_ne (Nat.le_mul_of_pos_left _ hv.seqSize_pos) (by omega) fun c hc y hy x hx heq => ?_
  rw [Ptr.add_add, ← place_eq h hv] at heq
  exact hp c hc y hy x hx heq

/-- The plane is turned so that the start comes first. -/
theorem copyChannel_apply (h : cfg.Regular) (hv : cfg.Valid) (hbuf : dst.buf ≠ src.buf) (hstart : start < cfg.seqSize)
    (hk : k < cfg.seqSize) (hy : y < cfg.height) (hx : x < cfg.width) :
    copyChannel cfg dst src start c m (dst.add (cfg.place c k y x)) =
      m (src.add (cfg.place c ((start + k) % cfg.seqSize) y x)) := by
  have hpixel := h.pixel_lt hv hy hx
  generalize hb : 4 * (y * cfg.width + x) = b at hpixel
  have hplace : ∀ j, cfg.place c j y x = c * cfg.shwBytes + (j * cfg.hwBytes + b) := fun j => by
    rw [SequenceConfig.place, hb]
  rw [hplace, hplace]
  simp only [copyChannel]
  by_cases hfirst : k < cfg.seqSize - start
  · -- the frames up to the end of the ring
    have hmod : (start + k) % cfg.seqSize = start + k := Nat.mod_eq_of_lt (by omega)
    have hin : k * cfg.hwBytes + b < (cfg.seqSize - start) * cfg.hwBytes := RowMajor.lt_mul hfirst hpixel
    have hcopy : m.memcpy (dst.add (c * cfg.shwBytes)) (src.add (c * cfg.shwBytes + start * cfg.hwBytes))
        ((cfg.seqSize - start) * cfg.hwBytes) (dst.add (c * cfg.shwBytes + (k * cfg.hwBytes + b))) =
        m (src.add (c * cfg.shwBytes + ((start + k) * cfg.hwBytes + b))) := by
      rw [← Ptr.add_add dst, Memory.memcpy_apply hin, Ptr.add_add]
      congr 2
      ring
    rw [hmod]
    split
    · rw [Memory.memcpy_of_off, hcopy]
      left
      simp only [Ptr.add_off]
      omega
    · exact hcopy
  · -- those from its beginning
    have hmod : (start + k) % cfg.seqSize = k - (cfg.seqSize - start) := by
      rw [show start + k = k - (cfg.seqSize - start) + cfg.seqSize by omega, Nat.add_mod_right,
        Nat.mod_eq_of_lt (by omega)]
    have hsplit : cfg.seqSize - start < cfg.seqSize := by omega
    have hin : (k - (cfg.seqSize - start)) * cfg.hwBytes + b < (cfg.seqSize - (cfg.seqSize - start)) * cfg.hwBytes :=
      RowMajor.lt_mul (by omega) hpixel
    have hdst : dst.add (c * cfg.shwBytes + (k * cfg.hwBytes + b)) =
        (dst.add (c * cfg.shwBytes + (cfg.seqSize - start) * cfg.hwBytes)).add
          ((k - (cfg.seqSize - start)) * cfg.hwBytes + b) := by
      rw [Ptr.add_add]
      congr 1
      have hk : k = cfg.seqSize - start + (k - (cfg.seqSize - start)) := by omega
      calc c * cfg.shwBytes + (k * cfg.hwBytes + b)
          = c * cfg.shwBytes + ((cfg.seqSize - start + (k - (cfg.seqSize - start))) * cfg.hwBytes + b) := by rw [← hk]
        _ = c * cfg.shwBytes + (cfg.seqSize - start) * cfg.hwBytes + ((k - (cfg.seqSize - start)) * cfg.hwBytes + b) := by
          ring
    have hsrc : (src.add (c * cfg.shwBytes + ((k - (cfg.seqSize - start)) * cfg.hwBytes + b))).buf ≠
        (dst.add (c * cfg.shwBytes)).buf := fun heq => hbuf heq.symm
    rw [if_pos hsplit, hmod, hdst, Memory.memcpy_apply hin, Ptr.add_add, Memory.memcpy_of_buf_ne hsrc]

/-- Only the plane's region is written. -/
theorem copyChannel_of_ne (h : cfg.Regular) (hv : cfg.Valid) (hstart : start < cfg.seqSize)
    (hp : p.buf = dst.buf → p.off < dst.off + c * cfg.shwBytes ∨ dst.off + (c + 1) * cfg.shwBytes ≤ p.off) :
    copyChannel cfg dst src start c m p = m p := by
  have hshw := (h.perBatchBytes_eq_mul hv).2
  have hall : (cfg.seqSize - start) * cfg.hwBytes + start * cfg.hwBytes = cfg.shwBytes := by
    rw [hshw, ← Nat.add_mul, Nat.sub_add_cancel (Nat.le_of_lt hstart)]
  have hrest : cfg.seqSize - (cfg.seqSize - start) = start := by omega
  have hnext : (c + 1) * cfg.shwBytes = c * cfg.shwBytes + cfg.shwBytes := by ring
  simp only [copyChannel]
  rw [hrest]
  by_cases hbuf : p.buf = dst.buf
  · have hoff := hp hbuf
    have hone : ∀ {m : Memory α}, m.memcpy (dst.add (c * cfg.shwBytes)) (src.add (c * cfg.shwBytes + start * cfg.hwBytes))
        ((cfg.seqSize - start) * cfg.hwBytes) p = m p := by
      intro m
      refine Memory.memcpy_of_off ?_
      simp only [Ptr.add_off]
      omega
    split
    · rw [Memory.memcpy_of_off, hone]
      simp only [Ptr.add_off]
      omega
    · exact hone
  · have hother : ∀ n, p.buf ≠ (dst.add n).buf := fun _ => hbuf
    split
    · rw [Memory.memcpy_of_buf_ne (hother _), Memory.memcpy_of_buf_ne (hother _)]
    · rw [Memory.memcpy_of_buf_ne (hother _)]

/-- The planes are copied one after the other, each into its own region. -/
theorem copyChannels (h : cfg.Regular) (hv : cfg.Valid) (hbuf : dst.buf ≠ src.buf) (hstart : start < cfg.seqSize) :
    ∀ n, let m' := (List.range n).foldl (fun m i => copyChannel cfg dst src start i m) m
      (∀ c < n, ∀ k < cfg.seqSize, ∀ y < cfg.height, ∀ x < cfg.width,
        m' (dst.add (cfg.place c k y x)) = m (src.add (cfg.place c ((start + k) % cfg.seqSize) y x))) ∧
      ∀ p : Ptr, (p.buf = dst.buf → p.off < dst.off ∨ dst.off + n * cfg.shwBytes ≤ p.off) → m' p = m p
  | 0 => ⟨fun c hc => absurd hc (Nat.not_lt_zero c), fun p _ => rfl⟩
  | n + 1 => by
    obtain ⟨hcopied, hkept⟩ := copyChannels h hv hbuf hstart n
    rw [List.range_succ, List.foldl_append]
    generalize (List.range n).foldl (fun m i => copyChannel cfg dst src start i m) m = m₁ at hcopied hkept
    have hnext : (n + 1) * cfg.shwBytes = n * cfg.shwBytes + cfg.shwBytes := by ring
    refine ⟨fun c hc k hk y hy x hx => ?_, fun p hp => ?_⟩
    · show copyChannel cfg dst src start n m₁ _ = _
      by_cases hlast : c = n
      · subst hlast
        rw [copyChannel_apply h hv hbuf hstart hk hy hx, hkept]
        exact fun heq => absurd heq.symm hbuf
      · have hbefore : c * cfg.shwBytes + (k * cfg.hwBytes + 4 * (y * cfg.width + x)) < n * cfg.shwBytes :=
          RowMajor.lt_mul (by omega) (h.slot_lt hv hk hy hx)
        rw [copyChannel_of_ne h hv hstart, hcopied c (by omega) k hk y hy x hx]
        intro _
        left
        exact Nat.add_lt_add_left hbefore _
    · show copyChannel cfg dst src start n m₁ p = m p
      rw [copyChannel_of_ne h hv hstart, hkept]
      · intro hb
        have := hp hb
        omega
      · intro hb
        have := hp hb
        omega

theorem copySequence_apply (h : cfg.Regular) (hv : cfg.Valid) (hbuf : dst.buf ≠ src.buf) (hstart : start < cfg.seqSize)
    (hc : c < cfg.channels) (hk : k < cfg.seqSize) (hy : y < cfg.height) (hx : x < cfg.width) :
    copySequence cfg dst src start m (dst.add (cfg.place c k y x)) =
      m (src.add (cfg.place c ((start + k) % cfg.seqSize) y x)) :=
  (copyChannels h hv hbuf hstart cfg.channels).1 c hc k hk y hy x hx

theorem copySequence_of_ne (h : cfg.Regular) (hv : cfg.Valid) (hbuf : dst.buf ≠ src.buf) (hstart : start < cfg.seqSize)
    (hp : p.buf = dst.buf → p.off < dst.off ∨ dst.off + cfg.perBatchBytes ≤ p.off) :
    copySequence cfg dst src start m p = m p :=
  (copyChannels h hv hbuf hstart cfg.channels).2 p ((h.perBatchBytes_eq_mul hv).1 ▸ hp)

end

end Sequence
end DeepStream
