/-
# The latency metas of a demuxed buffer

The demuxer gives each buffer the latency metas of the batch whose `source_id` is its
stream and whose `frame_num` is `frame_number`, a local that takes the first frame number
other than 0 that it meets. For video it is set anew for each buffer, and goes wrong when
a frame with the number 0 has several surfaces; for audio it is declared outside of the
loop over the streams, and the buffers after the first are matched by the number of the
first. The stream of a video buffer is its `pad_index`, which a latency meta is compared
with by its `source_id`.
-/
import DeepStream.Demux.Chain

namespace DeepStream
namespace Demux

variable {σ : Type*}

/-- A latency meta of the frame `own`: of its stream and with its number. -/
def latencyOf (own : NvDsFrameMeta) : NvDsUserMeta → Bool
  | .latency l => l.sourceId = own.sourceId ∧ l.padIndex = own.padIndex ∧ l.frameNum = own.frameNum
  | .other _ => false

/-- A buffer carries exactly the latency metas of its own frame. -/
def OwnLatency (userMetas : List NvDsUserMeta) (out : OutBuffer σ) : Prop :=
  ∀ own ∈ out.batchMeta.frameMetaList.head?, out.batchMeta.batchUserMetaList = userMetas.filter (latencyOf own)

/-- The first number other than 0. -/
def firstNumber (numbers : List ℕ) : ℕ := (numbers.find? fun n => n ≠ 0).getD 0

/-- The frame numbers of a buffer that is made at a position. -/
def numbersAt (d : NvStreamDemux) (frames : List NvDsFrameMeta) (i : ℕ) : List ℕ :=
  ((frames.drop i).take d.numSurfacesPerFrame).map NvDsFrameMeta.frameNum

/-- The frame numbers of the buffers that are made for `audios`, the first of which is at
the position `i`. -/
def audioNumbers (d : NvStreamDemux) (frames : List NvDsFrameMeta) : ℕ → List (NvBufAudioParams σ) → List ℕ
  | _, [] => []
  | i, audio :: audios =>
    (if d.audioReady audio.sourceId then numbersAt d frames i else []) ++ audioNumbers d frames (i + 1) audios

/-- The frame numbers that the demuxer has met when it matches the latency metas of the
buffer at a position: those of that buffer, and for audio those of the buffers before. -/
def numbersMet (d : NvStreamDemux) (buffer : BatchBuffer σ) (frames : List NvDsFrameMeta) (i : ℕ) : List ℕ :=
  if d.isAudio then audioNumbers d frames 0 (buffer.audioBuffers.take (i + 1)) else numbersAt d frames i

/-- For the frame `own` at a position the demuxer makes a buffer of a stream. -/
structure CreatedAt (d : NvStreamDemux) (buffer : BatchBuffer σ) (frames : List NvDsFrameMeta) (i streamId : ℕ)
    (own : NvDsFrameMeta) : Prop where
  frame : frames[i]? = some own
  pos : 0 < d.numSurfacesPerFrame
  created : if d.isAudio then
      ∃ audio, buffer.audioBuffers[i]? = some audio ∧ audio.sourceId = streamId ∧ d.audioReady streamId
    else d.numSurfacesPerFrame ∣ i ∧ own.padIndex = streamId ∧ d.videoReady streamId

/-- A frame whose latency metas are found: its `source_id` is the stream of the buffer, the
first frame number met that is not 0 is its own, and no latency meta of another pad has
the same `source_id` and number. -/
structure Separable (userMetas : List NvDsUserMeta) (streamId : ℕ) (numbers : List ℕ) (own : NvDsFrameMeta) : Prop where
  source : own.sourceId = streamId
  number : firstNumber numbers = own.frameNum
  pad : ∀ l, .latency l ∈ userMetas → l.sourceId = own.sourceId → l.frameNum = own.frameNum → l.padIndex = own.padIndex

/-- The batch has a latency meta of the frame. -/
def Measured (userMetas : List NvDsUserMeta) (own : NvDsFrameMeta) : Prop :=
  ∃ l, .latency l ∈ userMetas ∧ l.sourceId = own.sourceId ∧ l.padIndex = own.padIndex ∧ l.frameNum = own.frameNum

/-! ### One buffer -/

theorem firstNumber_append (l l' : List ℕ) : firstNumber (l ++ l') = firstNumber (firstNumber l :: l') := by
  unfold firstNumber
  rw [List.find?_append, List.find?_cons]
  cases h : l.find? fun n => n ≠ 0 with
  | none => rfl
  | some n =>
    have hn := List.find?_some h
    rw [Option.getD_some, hn]
    rfl

theorem noteFrameNumber_eq (frames : List NvDsFrameMeta) (n : ℕ) :
    noteFrameNumber n frames = firstNumber (n :: frames.map NvDsFrameMeta.frameNum) := by
  induction frames generalizing n with
  | nil =>
    by_cases hn : n = 0
    · rw [hn]
      rfl
    · show n = firstNumber [n]
      unfold firstNumber
      rw [List.find?_cons, decide_eq_true hn]
      rfl
  | cons src frames ih =>
    show noteFrameNumber (if n = 0 then src.frameNum else n) frames = _
    rw [ih, List.map_cons]
    by_cases hn : n = 0
    · rw [if_pos hn, hn]
      rfl
    · rw [if_neg hn]
      unfold firstNumber
      rw [List.find?_cons, decide_eq_true hn, List.find?_cons, decide_eq_true hn]

/-- Two ways to filter agree where the tests do. -/
theorem filter_eq_filter_iff {α : Type*} {p q : α → Bool} {l : List α} :
    l.filter p = l.filter q ↔ ∀ x ∈ l, p x = q x := by
  constructor
  · intro h x hx
    have hmem : x ∈ l.filter p ↔ x ∈ l.filter q := by rw [h]
    rw [List.mem_filter, List.mem_filter, and_iff_right hx, and_iff_right hx] at hmem
    exact Bool.eq_iff_iff.mpr hmem
  · exact List.filter_congr

/-- What the test by stream and number gives a frame that is measured. -/
theorem filter_latency_iff {userMetas : List NvDsUserMeta} {streamId : ℕ} {numbers : List ℕ} {own : NvDsFrameMeta}
    (h : Measured userMetas own) :
    userMetas.filter (latencyMatches streamId (firstNumber numbers)) = userMetas.filter (latencyOf own) ↔
      Separable userMetas streamId numbers own := by
  rw [filter_eq_filter_iff]
  constructor
  · intro hall
    obtain ⟨l, hl, hsource, hpad, hnumber⟩ := h
    have hown : latencyMatches streamId (firstNumber numbers) (.latency l) = true := by
      rw [hall _ hl]
      exact decide_eq_true ⟨hsource, hpad, hnumber⟩
    obtain ⟨hstream, hfirst⟩ := of_decide_eq_true hown
    refine ⟨hsource ▸ hstream, hfirst ▸ hnumber, fun l' hl' hsource' hnumber' => ?_⟩
    have hother : latencyOf own (.latency l') = true := by
      rw [← hall _ hl']
      exact decide_eq_true ⟨hsource'.trans (hsource ▸ hstream), hnumber'.trans (hnumber ▸ hfirst)⟩
    exact (of_decide_eq_true hother).2.1
  · rintro ⟨hsource, hnumber, hpads⟩ (l | metaType) hl
    · refine decide_eq_decide.mpr ?_
      rw [hnumber, ← hsource]
      exact ⟨fun ⟨h1, h2⟩ => ⟨h1, hpads l hl h1 h2, h2⟩, fun ⟨h1, _, h2⟩ => ⟨h1, h2⟩⟩
    · rfl

/-- A buffer that is made at a position carries the metas of its own frame exactly if that
frame is separable. -/
theorem ownLatency_iff_separable {d : NvStreamDemux} {frames copied : List NvDsFrameMeta} {userMetas : List NvDsUserMeta}
    (streamId : ℕ) {i frameNumber : ℕ} {own : NvDsFrameMeta} {out : OutBuffer σ} {numbers : List ℕ}
    (hown : 0 < d.numSurfacesPerFrame → frames[i]? = some own)
    (hcopied : copyFrameMetas frames i d.numSurfacesPerFrame = some copied)
    (hmeasured : 0 < d.numSurfacesPerFrame → Measured userMetas own)
    (hnumber : noteFrameNumber frameNumber copied = firstNumber numbers)
    (hout : out.batchMeta = ⟨copied, userMetas.filter (latencyMatches streamId (noteFrameNumber frameNumber copied))⟩) :
    OwnLatency userMetas out ↔ (0 < d.numSurfacesPerFrame → Separable userMetas streamId numbers own) := by
  rw [OwnLatency, hout, hnumber]
  dsimp only
  rw [copyFrameMetas_eq] at hcopied
  rcases Nat.eq_zero_or_pos d.numSurfacesPerFrame with hzero | hpos
  · rw [hzero, if_pos (.inl rfl)] at hcopied
    cases hcopied
    exact iff_of_true (fun _ h => by cases h) fun h => absurd hzero (Nat.ne_of_gt h)
  · obtain ⟨hlt, hat⟩ := List.getElem?_eq_some_iff.mp (hown hpos)
    obtain ⟨n, hn⟩ := Nat.exists_eq_succ_of_ne_zero (Nat.ne_of_gt hpos)
    have hhead : copied.head? = some { own with batchId := 0 } := by
      split at hcopied
      · cases hcopied
        rw [List.drop_eq_getElem_cons hlt, hn, hat, List.take_succ_cons, List.mapIdx_cons, List.head?_cons]
      · cases hcopied
    rw [hhead, ← filter_latency_iff (hmeasured hpos)]
    exact ⟨fun h _ => h { own with batchId := 0 } rfl, fun h own' hown' => by cases hown'; exact h hpos⟩

/-! ### The loops -/

section Loops

variable {d : NvStreamDemux} {srcMeta : NvDsBatchMeta}

/-- The multiples from `i` on are `i` and those of the next round. -/
theorem forall_multiple_iff {n i : ℕ} (hdvd : n ∣ i) {P : ℕ → Prop} :
    (∀ j, i ≤ j → n ∣ j → P j) ↔ P i ∧ ∀ j, i + n ≤ j → n ∣ j → P j := by
  constructor
  · exact fun h => ⟨h i (Nat.le_refl i) hdvd, fun j hij => h j (Nat.le_trans (Nat.le_add_right i n) hij)⟩
  · rintro ⟨hi, hrest⟩ j hij hj
    obtain ⟨a, rfl⟩ := hdvd
    obtain ⟨b, rfl⟩ := hj
    rcases Nat.lt_or_ge a b with hab | hab
    · have hnext := Nat.mul_le_mul_left n (Nat.succ_le_of_lt hab)
      rw [Nat.mul_succ] at hnext
      exact hrest _ hnext (Nat.dvd_mul_right n b)
    · rwa [Nat.le_antisymm (Nat.mul_le_mul_left n hab) hij]

/-- The buffers of a video batch, from a position on. -/
theorem cudaBatchLoop_iff {surfaceList : List σ} : ∀ (n i : ℕ) {outs : List (OutBuffer σ)},
    d.cudaBatchLoop surfaceList srcMeta n i = some outs → d.numSurfacesPerFrame ∣ i →
    (∀ j own, srcMeta.frameMetaList[j]? = some own → d.numSurfacesPerFrame ∣ j → d.videoReady own.padIndex →
      0 < d.numSurfacesPerFrame → Measured srcMeta.batchUserMetaList own) →
    ((∀ out ∈ outs, OwnLatency srcMeta.batchUserMetaList out) ↔
      ∀ j, i ≤ j → d.numSurfacesPerFrame ∣ j → ∀ own, srcMeta.frameMetaList[j]? = some own →
        d.videoReady own.padIndex → 0 < d.numSurfacesPerFrame →
        Separable srcMeta.batchUserMetaList own.padIndex (numbersAt d srcMeta.frameMetaList j) own) := by
  intro n
  induction n with
  | zero =>
    intro i outs h
    cases h
  | succ n ih =>
    intro i outs h hdvd hmeasured
    unfold NvStreamDemux.cudaBatchLoop at h
    by_cases hi : i < srcMeta.frameMetaList.length
    · have hat : srcMeta.frameMetaList[i]? = some srcMeta.frameMetaList[i] := List.getElem?_eq_getElem hi
      have hnextDvd : d.numSurfacesPerFrame ∣ i + d.numSurfacesPerFrame := Nat.dvd_add hdvd (Nat.dvd_refl _)
      rw [if_pos hi, hat] at h
      dsimp only at h
      rw [forall_multiple_iff hdvd]
      by_cases hready : d.videoReady srcMeta.frameMetaList[i].padIndex
      · rw [if_pos hready] at h
        split at h
        · rename_i buf rest hbuf hrest
          cases h
          unfold createSharedMemBuf at hbuf
          rw [hat] at hbuf
          split at hbuf
          · rename_i frameMeta copied hframe hcopied
            cases hbuf
            cases hframe
            have hnumber : noteFrameNumber 0 copied = firstNumber (numbersAt d srcMeta.frameMetaList i) := by
              rw [noteFrameNumber_eq, copyFrameMetas_frameNum hcopied]
              rfl
            rw [List.forall_mem_cons, ih _ hrest hnextDvd hmeasured, ownLatency_iff_separable _ (fun _ => hat) hcopied
              (fun hpos => hmeasured i _ hat hdvd hready hpos) hnumber rfl]
            refine and_congr_left' ⟨fun hsep own hown _ hpos => ?_, fun hall => hall _ hat hready⟩
            rw [hat, Option.some.injEq] at hown
            exact hown ▸ hsep hpos
          · cases hbuf
        · cases h
      · rw [if_neg hready] at h
        rw [ih _ h hnextDvd hmeasured]
        refine (and_iff_right fun own hown hownReady => ?_).symm
        rw [hat, Option.some.injEq] at hown
        exact absurd (hown ▸ hownReady) hready
    · rw [if_neg hi] at h
      cases h
      refine iff_of_true (fun _ h => absurd h List.not_mem_nil) fun j hij _ own hj => ?_
      rw [List.getElem?_eq_none (by omega)] at hj
      cases hj

theorem audioNumbers_append (frames : List NvDsFrameMeta) : ∀ (i : ℕ) (l l' : List (NvBufAudioParams σ)),
    audioNumbers d frames i (l ++ l') = audioNumbers d frames i l ++ audioNumbers d frames (i + l.length) l'
  | _, [], _ => rfl
  | i, audio :: l, l' => by
    rw [List.cons_append, audioNumbers, audioNumbers, audioNumbers_append frames (i + 1) l l', List.append_assoc,
      List.length_cons, Nat.add_right_comm, Nat.add_assoc]

/-- The buffers of an audio batch, after those for `before`. -/
theorem audioBatchLoop_iff : ∀ (audios before : List (NvBufAudioParams σ)) {outs : List (OutBuffer σ)},
    d.audioBatchLoop srcMeta (firstNumber (audioNumbers d srcMeta.frameMetaList 0 before)) before.length audios =
      some outs →
    (∀ (j : ℕ) (audio : NvBufAudioParams σ) own, (before ++ audios)[j]? = some audio → srcMeta.frameMetaList[j]? = some own →
      d.audioReady audio.sourceId → 0 < d.numSurfacesPerFrame → Measured srcMeta.batchUserMetaList own) →
    ((∀ out ∈ outs, OwnLatency srcMeta.batchUserMetaList out) ↔
      ∀ (j : ℕ) (audio : NvBufAudioParams σ) own, before.length ≤ j → (before ++ audios)[j]? = some audio → srcMeta.frameMetaList[j]? = some own →
        d.audioReady audio.sourceId → 0 < d.numSurfacesPerFrame →
        Separable srcMeta.batchUserMetaList audio.sourceId
          (audioNumbers d srcMeta.frameMetaList 0 ((before ++ audios).take (j + 1))) own) := by
  intro audios
  induction audios with
  | nil =>
    intro before outs h _
    cases h
    refine iff_of_true (fun _ h => absurd h List.not_mem_nil) fun j audio own hj hat => ?_
    rw [List.append_nil, List.getElem?_eq_none hj] at hat
    cases hat
  | cons audio audios ih =>
    intro before outs h hmeasured
    have happend : before ++ audio :: audios = (before ++ [audio]) ++ audios := by
      rw [List.append_assoc, List.singleton_append]
    have hlen : (before ++ [audio]).length = before.length + 1 := by
      rw [List.length_append, List.length_singleton]
    have hat : (before ++ audio :: audios)[before.length]? = some audio := by
      rw [List.getElem?_append_right (Nat.le_refl _), Nat.sub_self, List.getElem?_cons_zero]
    have htake : (before ++ audio :: audios).take (before.length + 1) = before ++ [audio] := by
      rw [happend, ← hlen, List.take_left]
    have hnumbers : audioNumbers d srcMeta.frameMetaList 0 (before ++ [audio]) =
        audioNumbers d srcMeta.frameMetaList 0 before ++
          if d.audioReady audio.sourceId then numbersAt d srcMeta.frameMetaList before.length else [] := by
      rw [audioNumbers_append, Nat.zero_add, audioNumbers, audioNumbers, List.append_nil]
    unfold NvStreamDemux.audioBatchLoop at h
    by_cases hready : d.audioReady audio.sourceId
    · rw [if_pos hready] at h hnumbers
      split at h
      · cases h
      · rename_i copied hcopied
        have hnote : noteFrameNumber (firstNumber (audioNumbers d srcMeta.frameMetaList 0 before)) copied =
            firstNumber (audioNumbers d srcMeta.frameMetaList 0 (before ++ [audio])) := by
          rw [noteFrameNumber_eq, copyFrameMetas_frameNum hcopied, hnumbers, firstNumber_append]
          rfl
        dsimp only at h
        rw [hnote, ← hlen] at h
        split at h
        · cases h
        · rename_i rest hrest
          cases h
          have hih := ih (before ++ [audio]) hrest (by rwa [← happend])
          rw [← happend, hlen] at hih
          obtain ⟨own, hown⟩ : ∃ own, 0 < d.numSurfacesPerFrame → srcMeta.frameMetaList[before.length]? = some own := by
            rw [copyFrameMetas_eq] at hcopied
            split at hcopied
            · rename_i hroom
              by_cases hlt : before.length < srcMeta.frameMetaList.length
              · exact ⟨_, fun _ => List.getElem?_eq_getElem hlt⟩
              · exact ⟨⟨0, 0, 0, 0, 0⟩, fun hpos => by omega⟩
            · cases hcopied
          rw [List.forall_mem_cons, hih, ownLatency_iff_separable audio.sourceId hown hcopied
            (fun hpos => hmeasured _ _ _ hat (hown hpos) hready hpos) hnote (by rw [hnote])]
          constructor
          · rintro ⟨hfirst, hrest⟩ j audio' own' hij hj hown' hjready hpos
            rcases Nat.lt_or_eq_of_le hij with hlt | rfl
            · exact hrest j audio' own' hlt hj hown' hjready hpos
            · rw [hat, Option.some.injEq] at hj
              rw [hown hpos, Option.some.injEq] at hown'
              rw [← hj, ← hown', htake]
              exact hfirst hpos
          · intro hall
            refine ⟨fun hpos => ?_, fun j audio' own' hlt hj hown' hjready hpos => ?_⟩
            · have hfirst := hall _ _ _ (Nat.le_refl _) hat (hown hpos) hready hpos
              rwa [htake] at hfirst
            · exact hall j audio' own' (Nat.le_of_lt hlt) hj hown' hjready hpos
    · rw [if_neg hready] at h hnumbers
      rw [List.append_nil] at hnumbers
      rw [← hnumbers, ← hlen] at h
      have hih := ih (before ++ [audio]) h (by rwa [← happend])
      rw [← happend, hlen] at hih
      rw [hih]
      constructor
      · intro hall j audio' own hij hj hown hjready hpos
        rcases Nat.lt_or_eq_of_le hij with hlt | rfl
        · exact hall j audio' own hlt hj hown hjready hpos
        · rw [hat, Option.some.injEq] at hj
          exact absurd (hj ▸ hjready) hready
      · intro hall j audio' own hlt hj hown hjready hpos
        exact hall j audio' own (Nat.le_of_lt hlt) hj hown hjready hpos

end Loops

/-! ### Every buffer of a batch -/

/-- **When demuxed buffers carry the latency metas of their own frames.** If the batch has
a latency meta of every frame for which the demuxer makes a buffer, then each of the
buffers carries exactly the latency metas of its own frame if and only if all these frames
are separable. -/
theorem ownLatency_iff {d : NvStreamDemux} {flow : OutBuffer σ → GstFlowReturn} {buffer : BatchBuffer σ}
    {srcMeta : NvDsBatchMeta} {r : ChainResult σ} (hmeta : buffer.batchMeta = some srcMeta)
    (hr : d.sinkChainCudaBatch flow buffer = some r)
    (hmeasured : ∀ i streamId own, CreatedAt d buffer srcMeta.frameMetaList i streamId own →
      Measured srcMeta.batchUserMetaList own) :
    (∀ out ∈ r.created, OwnLatency srcMeta.batchUserMetaList out) ↔
      ∀ i streamId own, CreatedAt d buffer srcMeta.frameMetaList i streamId own →
        Separable srcMeta.batchUserMetaList streamId (numbersMet d buffer srcMeta.frameMetaList i) own := by
  unfold NvStreamDemux.sinkChainCudaBatch at hr
  by_cases haudio : d.isAudio
  · rw [if_pos haudio, NvStreamDemux.sinkChainAudioBatch, hmeta] at hr
    obtain ⟨created, hloop, rfl⟩ := Option.map_eq_some_iff.mp hr
    refine (audioBatchLoop_iff buffer.audioBuffers [] hloop fun j audio own hj hown hready hpos => ?_).trans ?_
    · exact hmeasured j _ own ⟨hown, hpos, by rw [if_pos haudio]; exact ⟨audio, hj, rfl, hready⟩⟩
    · have hmet : ∀ i, numbersMet d buffer srcMeta.frameMetaList i =
          audioNumbers d srcMeta.frameMetaList 0 (buffer.audioBuffers.take (i + 1)) := fun _ => if_pos haudio
      constructor
      · rintro hall i streamId own ⟨hown, hpos, hcreated⟩
        rw [if_pos haudio] at hcreated
        obtain ⟨audio, hj, rfl, hready⟩ := hcreated
        rw [hmet]
        exact hall i audio own (Nat.zero_le _) hj hown hready hpos
      · intro hall j audio own _ hj hown hready hpos
        have hown' := hall j _ own ⟨hown, hpos, by rw [if_pos haudio]; exact ⟨audio, hj, rfl, hready⟩⟩
        rwa [hmet] at hown'
  · rw [if_neg haudio, hmeta] at hr
    obtain ⟨created, hloop, rfl⟩ := Option.map_eq_some_iff.mp hr
    refine (cudaBatchLoop_iff _ 0 hloop (Nat.dvd_zero _) fun j own hown hdvd hready hpos => ?_).trans ?_
    · exact hmeasured j _ own ⟨hown, hpos, by rw [if_neg haudio]; exact ⟨hdvd, rfl, hready⟩⟩
    · have hmet : ∀ i, numbersMet d buffer srcMeta.frameMetaList i = numbersAt d srcMeta.frameMetaList i :=
        fun _ => if_neg haudio
      constructor
      · rintro hall i streamId own ⟨hown, hpos, hcreated⟩
        rw [if_neg haudio] at hcreated
        obtain ⟨hdvd, rfl, hready⟩ := hcreated
        rw [hmet]
        exact hall i (Nat.zero_le _) hdvd own hown hready hpos
      · intro hall j _ hdvd own hown hready hpos
        have hown' := hall j _ own ⟨hown, hpos, by rw [if_neg haudio]; exact ⟨hdvd, rfl, hready⟩⟩
        rwa [hmet] at hown'

/-- A demuxer with a linked source pad for every stream. -/
def allLinked (isAudio : Bool) (numSurfacesPerFrame : ℕ) : NvStreamDemux where
  isAudio := isAudio
  numSurfacesPerFrame := numSurfacesPerFrame
  padIndexes := fun _ => some ⟨true, true⟩

/-- A batch of one frame for each pair of a stream and a frame number, each with its
latency meta. -/
def measuredBatch (frames : List (ℕ × ℕ)) : BatchBuffer ℕ where
  surfaceList := frames.map Prod.fst
  audioBuffers := frames.map fun f => ⟨f.1, f.1, 0⟩
  batchMeta := some
    { frameMetaList := frames.map fun f => ⟨f.1, f.1, f.2, 0, 0⟩
      batchUserMetaList := frames.map fun f => .latency ⟨f.1, f.2, f.1, 0⟩ }

/-- Two streams at the same frame number: both buffers carry their own metas. -/
theorem ownLatency_iff_sameNumber : ∃ r : ChainResult ℕ,
    (allLinked true 1).sinkChainCudaBatch (fun _ => .ok) (measuredBatch [(0, 5), (1, 5)]) = some r ∧
      ∀ out ∈ r.created, OwnLatency [.latency ⟨0, 5, 0, 0⟩, .latency ⟨1, 5, 1, 0⟩] out := by
  have hrun : ((allLinked true 1).sinkChainCudaBatch (fun _ => .ok) (measuredBatch [(0, 5), (1, 5)])).isSome := rfl
  obtain ⟨r, hr⟩ := Option.isSome_iff_exists.mp hrun
  have hmeta : (measuredBatch [(0, 5), (1, 5)]).batchMeta =
      some ⟨[⟨0, 0, 5, 0, 0⟩, ⟨1, 1, 5, 0, 0⟩], [.latency ⟨0, 5, 0, 0⟩, .latency ⟨1, 5, 1, 0⟩]⟩ := rfl
  refine ⟨r, hr, (ownLatency_iff hmeta hr fun i streamId own h => ?_).mpr fun i streamId own h => ?_⟩
  · obtain ⟨hown, -, -⟩ := h
    have hi : i = 0 ∨ i = 1 := by
      have : i < 2 := (List.getElem?_eq_some_iff.mp hown).1
      omega
    rcases hi with rfl | rfl <;> cases hown
    · exact ⟨⟨0, 5, 0, 0⟩, by simp, rfl, rfl, rfl⟩
    · exact ⟨⟨1, 5, 1, 0⟩, by simp, rfl, rfl, rfl⟩
  · obtain ⟨hown, -, hcreated⟩ := h
    have hkind : (allLinked true 1).isAudio = true := rfl
    rw [if_pos hkind] at hcreated
    obtain ⟨audio, haudio, rfl, -⟩ := hcreated
    have hi : i = 0 ∨ i = 1 := by
      have : i < 2 := (List.getElem?_eq_some_iff.mp hown).1
      omega
    rcases hi with rfl | rfl <;> cases hown <;> cases haudio
    · exact ⟨rfl, rfl, by simp⟩
    · exact ⟨rfl, rfl, by simp⟩

/-- Two streams at the frame numbers 5 and 7: the buffer of the second carries no latency
meta, although the batch has the one of its frame. -/
theorem audio_latency_lost : ∃ r : ChainResult ℕ,
    (allLinked true 1).sinkChainCudaBatch (fun _ => .ok) (measuredBatch [(0, 5), (1, 7)]) = some r ∧
      (∀ own ∈ ([⟨0, 0, 5, 0, 0⟩, ⟨1, 1, 7, 0, 0⟩] : List NvDsFrameMeta),
        Measured [.latency ⟨0, 5, 0, 0⟩, .latency ⟨1, 7, 1, 0⟩] own) ∧
      ∃ out ∈ r.created, out.streamId = 1 ∧ out.batchMeta.batchUserMetaList = [] ∧
        ¬ OwnLatency [.latency ⟨0, 5, 0, 0⟩, .latency ⟨1, 7, 1, 0⟩] out := by
  refine ⟨_, rfl, ?_, ⟨1, [1], 0, ⟨[⟨1, 1, 7, 0, 0⟩], []⟩⟩, ?_, rfl, rfl, fun h => ?_⟩
  · intro own hown
    rcases List.mem_pair.mp hown with rfl | rfl
    · exact ⟨⟨0, 5, 0, 0⟩, by simp, rfl, rfl, rfl⟩
    · exact ⟨⟨1, 7, 1, 0⟩, by simp, rfl, rfl, rfl⟩
  · exact List.mem_cons_of_mem _ List.mem_cons_self
  · exact absurd (h ⟨1, 1, 7, 0, 0⟩ rfl) (by decide)

end Demux
end DeepStream
