/-
# Preparing a tensor

`prepare_tensor` of the preprocess library selects a conversion function by the formats of the
network and of the scaled pictures and by the order of the tensor, and calls it for every unit of
the batch. There are two variables for it, one for functions that write floats and one for those
that write halves. Which one is set depends on the branch of the selection, and which one is
called on the data type alone.
-/
import DeepStream.Infer.TensorInput
import DeepStream.Preprocess.Conversion

namespace DeepStream
namespace Preprocess
namespace Tensor

open Infer (NvDsDataType)

inductive NvDsPreProcessFormat where
  | rgb | bgr | gray | rgba | bgrx | tensor | unknown
  deriving DecidableEq, Repr

inductive NvDsPreProcessNetworkInputOrder where
  | nchw | nhwc | custom
  deriving DecidableEq, Repr

inductive NvDsPreProcessStatus where
  | invalidParams
  deriving DecidableEq, Repr

/-- What `normalization_mean_subtraction_impl_initialize` makes: it compares the channels with the format. -/
structure NvDsPreProcessTensorImpl where
  networkInputFormat : NvDsPreProcessFormat
  inputOrder : NvDsPreProcessNetworkInputOrder
  channels : ℕ
  width : ℕ
  height : ℕ
  three_channels : networkInputFormat = .rgb ∨ networkInputFormat = .bgr → channels = 3
  one_channel : networkInputFormat = .gray → channels = 1

/-- The units are given by the bytes of their pictures. -/
structure NvDsPreProcessBatch where
  units : List (ℕ → ℕ)
  scalingPoolFormat : NvDsPreProcessFormat
  pitch : ℕ

def bytesPerElement : NvDsDataType → ℕ
  | .fp32 | .uint32 | .int32 => 4
  | .uint8 | .int8 => 1
  | .fp16 => 2

/-! ### The selection -/

/-- The two variables. -/
structure Selected where
  convertFcn : Option ConvertFcn := none
  convertFcnHalf : Option ConvertFcn := none

variable (impl : NvDsPreProcessTensorImpl) (batch : NvDsPreProcessBatch) (dataType : NvDsDataType)

/-- The innermost switch, on the order of the tensor. -/
def byOrder (nchw nhwc : Selected) : Except NvDsPreProcessStatus Selected :=
  match impl.inputOrder with
  | .nchw => .ok nchw
  | .nhwc => .ok nhwc
  | .custom => .ok {}

/-- What pictures in RGBA are converted to planes with: the one place where the data type is asked for. -/
def selectPlanes (half float : ConvertFcn) : Selected :=
  if dataType = .fp16 then { convertFcnHalf := some half } else { convertFcn := some float }

def selectRgb : NvDsPreProcessFormat → Except NvDsPreProcessStatus Selected
  | .rgb => byOrder impl { convertFcn := some convertC3ToP3Float } { convertFcn := some convertC3ToL3Float }
  | .bgr => byOrder impl { convertFcn := some convertC3ToP3RFloat } { convertFcn := some convertC3ToL3RFloat }
  | .rgba =>
    byOrder impl (selectPlanes dataType convertC4ToP3Half convertC4ToP3Float) { convertFcn := some convertC4ToL3Float }
  | .bgrx => byOrder impl { convertFcn := some convertC4ToP3RFloat } { convertFcn := some convertC4ToL3RFloat }
  | .gray | .tensor | .unknown => .error .invalidParams

def selectBgr : NvDsPreProcessFormat → Except NvDsPreProcessStatus Selected
  | .rgb => byOrder impl { convertFcn := some convertC3ToP3RFloat } { convertFcn := some convertC3ToL3RFloat }
  | .bgr => byOrder impl { convertFcn := some convertC3ToP3Float } { convertFcn := some convertC3ToL3Float }
  | .rgba =>
    byOrder impl (selectPlanes dataType convertC4ToP3RHalf convertC4ToP3RFloat)
      { convertFcn := some convertC4ToL3RFloat }
  | .bgrx => byOrder impl { convertFcn := some convertC4ToP3Float } { convertFcn := some convertC4ToL3Float }
  | .gray | .tensor | .unknown => .error .invalidParams

def selectFcn : Except NvDsPreProcessStatus Selected :=
  match impl.networkInputFormat with
  | .rgb => selectRgb impl dataType batch.scalingPoolFormat
  | .bgr => selectBgr impl dataType batch.scalingPoolFormat
  | .gray =>
    if batch.scalingPoolFormat ≠ .gray then .error .invalidParams
    else .ok { convertFcn := some convertC1ToP1Float }
  | .rgba | .bgrx | .tensor | .unknown => .error .invalidParams

/-! ### The calls -/

/-- A call of a conversion function; `offset` is counted from the buffer of the tensor. -/
structure Call where
  fcn : ConvertFcn
  offset : ℕ
  frame : ℕ → ℕ

inductive Outcome where
  | error (status : NvDsPreProcessStatus)
  | nullCall
  | done (calls : List Call)

/-- `unsigned` arithmetic. -/
def sliceOffset (i : ℕ) : ℕ :=
  i * impl.channels * impl.width * impl.height * bytesPerElement dataType % 2 ^ 32

/-- The loop, at unit `i`; `none`: a null pointer is called. -/
def convertUnits (selected : Selected) : ℕ → List (ℕ → ℕ) → Option (List Call)
  | _, [] => some []
  | i, frame :: frames =>
    if selected.convertFcn.isSome ∨ selected.convertFcnHalf.isSome then
      match if dataType = .fp16 then selected.convertFcnHalf else selected.convertFcn with
      | none => none
      | some fcn =>
        (convertUnits selected (i + 1) frames).map fun calls => Call.mk fcn (sliceOffset impl dataType i) frame :: calls
    else convertUnits selected (i + 1) frames

def prepareTensor : Outcome :=
  match selectFcn impl batch dataType with
  | .error status => .error status
  | .ok selected =>
    match convertUnits impl dataType selected 0 batch.units with
    | none => .nullCall
    | some calls => .done calls

/-! ### What should be called -/

inductive Colour where
  | red | green | blue | gray
  deriving DecidableEq, Repr

/-- The colours of the first bytes of a pixel. -/
def NvDsPreProcessFormat.colours : NvDsPreProcessFormat → List Colour
  | .rgb | .rgba => [.red, .green, .blue]
  | .bgr | .bgrx => [.blue, .green, .red]
  | .gray => [.gray]
  | .tensor | .unknown => []

def NvDsPreProcessFormat.pixelSize : NvDsPreProcessFormat → ℕ
  | .rgb | .bgr => 3
  | .rgba | .bgrx => 4
  | .gray => 1
  | .tensor | .unknown => 0

/-- Where an element of a slice is. -/
def tensorIndex (p : Place) : Option ℕ :=
  match impl.inputOrder with
  | .nchw => some ((p.k * impl.height + p.row) * impl.width + p.col)
  | .nhwc => some ((p.row * impl.width + p.col) * impl.channels + p.k)
  | .custom => none

def outTypeOf : NvDsDataType → Option OutType
  | .fp32 => some .float
  | .fp16 => some .half
  | .uint8 | .int8 | .uint32 | .int32 => none

def unitBytes : ℕ := impl.channels * impl.width * impl.height * bytesPerElement dataType

/-- The function makes of a picture of this format a slice of the tensor. -/
structure Converts (pool : NvDsPreProcessFormat) (f : ConvertFcn) : Prop where
  channels : f.channels = impl.channels
  pixelSize : f.inputPixelSize = pool.pixelSize
  colour : ∀ k < impl.channels, ∃ c, impl.networkInputFormat.colours[k]? = some c ∧
    pool.colours[f.inChannel k]? = some c
  order : impl.inputOrder ≠ .custom
  place : ∀ p, f.Inside impl.width impl.height p → tensorIndex impl p = some (f.outIndex impl.width impl.height p)
  type : outTypeOf dataType = some f.outType

def Meets : Prop :=
  match prepareTensor impl batch dataType with
  | .error _ => True
  | .nullCall => False
  | .done calls => ∀ i frame, batch.units[i]? = some frame →
      ∃ f, calls[i]? = some (Call.mk f (i * unitBytes impl dataType) frame) ∧ Converts impl dataType batch.scalingPoolFormat f

/-- There are functions for these formats. -/
def Supported (network pool : NvDsPreProcessFormat) : Prop :=
  (network = .rgb ∨ network = .bgr) ∧ (pool = .rgb ∨ pool = .bgr ∨ pool = .rgba ∨ pool = .bgrx) ∨
    network = .gray ∧ pool = .gray

instance (network pool : NvDsPreProcessFormat) : Decidable (Supported network pool) := by
  unfold Supported
  infer_instance

/-- A float tensor, or a half tensor of planes from pictures in RGBA. -/
def TypeFits : Prop :=
  dataType = .fp32 ∨ dataType = .fp16 ∧ batch.scalingPoolFormat = .rgba ∧ impl.inputOrder = .nchw

/-- The places of the elements and the offsets of the slices are 32-bit numbers. -/
def NoOverflow : Prop :=
  impl.channels * impl.height * impl.width ≤ 2 ^ 32 ∧ (batch.units.length - 1) * unitBytes impl dataType < 2 ^ 32

def MeetsWhen : Prop :=
  ¬Supported impl.networkInputFormat batch.scalingPoolFormat ∨ batch.units = [] ∨
    impl.inputOrder ≠ .custom ∧ TypeFits impl batch dataType ∧ NoOverflow impl batch dataType

/-! ### What is selected -/

variable {impl batch dataType} {network pool : NvDsPreProcessFormat} {f : ConvertFcn}

/-- The function reads the colours of the network from a picture. -/
def Reads (network pool : NvDsPreProcessFormat) (f : ConvertFcn) : Prop :=
  f.channels = network.colours.length ∧ f.inputPixelSize = pool.pixelSize ∧
    ∀ k < f.channels, network.colours[k]? = pool.colours[f.inChannel k]?

instance (network pool : NvDsPreProcessFormat) (f : ConvertFcn) : Decidable (Reads network pool f) := by
  unfold Reads
  infer_instance

/-- The output is in the order of the tensor. -/
def LaidOut (order : NvDsPreProcessNetworkInputOrder) (f : ConvertFcn) : Prop :=
  f.channels = 1 ∨ f.planar = true ∧ order = .nchw ∨ f.planar = false ∧ order = .nhwc

instance (order : NvDsPreProcessNetworkInputOrder) (f : ConvertFcn) : Decidable (LaidOut order f) := by
  unfold LaidOut
  infer_instance

/-- The one branch that looks at the data type finds a half tensor. -/
def IsHalfBranch (pool : NvDsPreProcessFormat) (order : NvDsPreProcessNetworkInputOrder) (dataType : NvDsDataType) :
    Prop :=
  pool = .rgba ∧ order = .nchw ∧ dataType = .fp16

/-- A function for these formats is in the variable for its type. -/
inductive Chosen (network pool : NvDsPreProcessFormat) (order : NvDsPreProcessNetworkInputOrder)
    (dataType : NvDsDataType) : Selected → Prop
  | float (f : ConvertFcn) : Reads network pool f → LaidOut order f → f.outType = .float →
      ¬(network ≠ .gray ∧ IsHalfBranch pool order dataType) → Chosen network pool order dataType ⟨some f, none⟩
  | half (f : ConvertFcn) : Reads network pool f → LaidOut order f → f.outType = .half →
      IsHalfBranch pool order dataType → Chosen network pool order dataType ⟨none, some f⟩

/-- What the selection can end with. -/
inductive Selects (impl : NvDsPreProcessTensorImpl) (network pool : NvDsPreProcessFormat) (dataType : NvDsDataType) :
    Except NvDsPreProcessStatus Selected → Prop
  | error : ¬Supported network pool → Selects impl network pool dataType (.error .invalidParams)
  | nothing : Supported network pool → impl.inputOrder = .custom → Selects impl network pool dataType (.ok {})
  | chosen {selected : Selected} : Supported network pool → Chosen network pool impl.inputOrder dataType selected →
      Selects impl network pool dataType (.ok selected)

theorem selects_byOrder {nchw nhwc : Selected} (hsupported : Supported network pool)
    (hnchw : Chosen network pool .nchw dataType nchw) (hnhwc : Chosen network pool .nhwc dataType nhwc) :
    Selects impl network pool dataType (byOrder impl nchw nhwc) := by
  unfold byOrder
  cases horder : impl.inputOrder with
  | nchw => exact .chosen hsupported (horder ▸ hnchw)
  | nhwc => exact .chosen hsupported (horder ▸ hnhwc)
  | custom => exact .nothing hsupported horder

/-- Two functions that write floats, where the pictures are not in RGBA. -/
theorem selects_floats (planes pixels : ConvertFcn) (hsupported : Supported network pool) (hpool : pool ≠ .rgba)
    (hplanes : Reads network pool planes ∧ LaidOut .nchw planes ∧ planes.outType = .float)
    (hpixels : Reads network pool pixels ∧ LaidOut .nhwc pixels ∧ pixels.outType = .float) :
    Selects impl network pool dataType (byOrder impl { convertFcn := some planes } { convertFcn := some pixels }) :=
  selects_byOrder hsupported (.float planes hplanes.1 hplanes.2.1 hplanes.2.2 fun h => hpool h.2.1)
    (.float pixels hpixels.1 hpixels.2.1 hpixels.2.2 fun h => hpool h.2.1)

theorem selects_rgba (half float pixels : ConvertFcn) (hsupported : Supported network .rgba)
    (hhalf : Reads network .rgba half ∧ LaidOut .nchw half ∧ half.outType = .half)
    (hfloat : Reads network .rgba float ∧ LaidOut .nchw float ∧ float.outType = .float)
    (hpixels : Reads network .rgba pixels ∧ LaidOut .nhwc pixels ∧ pixels.outType = .float) :
    Selects impl network .rgba dataType
      (byOrder impl (selectPlanes dataType half float) { convertFcn := some pixels }) := by
  refine selects_byOrder hsupported ?_ (.float pixels hpixels.1 hpixels.2.1 hpixels.2.2 fun h => by cases h.2.2.1)
  unfold selectPlanes
  split
  · rename_i htype
    exact .half half hhalf.1 hhalf.2.1 hhalf.2.2 ⟨rfl, rfl, htype⟩
  · rename_i htype
    exact .float float hfloat.1 hfloat.2.1 hfloat.2.2 fun h => htype h.2.2.2

theorem selects_selectRgb (impl : NvDsPreProcessTensorImpl) (dataType : NvDsDataType) (pool : NvDsPreProcessFormat) :
    Selects impl .rgb pool dataType (selectRgb impl dataType pool) := by
  cases pool with
  | rgb | bgr | bgrx => exact selects_floats _ _ (by decide) (by decide) (by decide) (by decide)
  | rgba => exact selects_rgba _ _ _ (by decide) (by decide) (by decide) (by decide)
  | gray | tensor | unknown => exact .error (by decide)

theorem selects_selectBgr (impl : NvDsPreProcessTensorImpl) (dataType : NvDsDataType) (pool : NvDsPreProcessFormat) :
    Selects impl .bgr pool dataType (selectBgr impl dataType pool) := by
  cases pool with
  | rgb | bgr | bgrx => exact selects_floats _ _ (by decide) (by decide) (by decide) (by decide)
  | rgba => exact selects_rgba _ _ _ (by decide) (by decide) (by decide) (by decide)
  | gray | tensor | unknown => exact .error (by decide)

theorem selects_selectFcn (impl : NvDsPreProcessTensorImpl) (batch : NvDsPreProcessBatch) (dataType : NvDsDataType) :
    Selects impl impl.networkInputFormat batch.scalingPoolFormat dataType (selectFcn impl batch dataType) := by
  unfold selectFcn
  cases impl.networkInputFormat with
  | rgb => exact selects_selectRgb impl dataType _
  | bgr => exact selects_selectBgr impl dataType _
  | gray =>
    by_cases hpool : batch.scalingPoolFormat = .gray
    · rw [hpool]
      exact .chosen (by decide) (.float convertC1ToP1Float (by decide) (.inl rfl) rfl fun h => h.1 rfl)
    · refine (if_pos hpool).symm ▸ .error ?_
      simp [Supported, hpool]
  | rgba | bgrx | tensor | unknown => exact .error (by simp [Supported])

/-! ### Where the elements go -/

theorem tensorIndex_eq (hchannels : f.channels = impl.channels) (hlaid : LaidOut impl.inputOrder f)
    (horder : impl.inputOrder ≠ .custom) {p : Place} (hp : f.Inside impl.width impl.height p) :
    tensorIndex impl p = some (f.rawIndex impl.width impl.height p) := by
  unfold tensorIndex ConvertFcn.rawIndex
  rcases hlaid with hone | ⟨hplanar, hnchw⟩ | ⟨hpacked, hnhwc⟩
  · have hk : p.k = 0 := Nat.lt_one_iff.mp (hone ▸ hp.k)
    rw [← hchannels, hone, hk]
    cases h : impl.inputOrder with
    | nchw => simp
    | nhwc => simp
    | custom => exact absurd h horder
  · rw [hnchw, hplanar]
    simp only [if_true, Option.some.injEq]
    ring
  · rw [hnhwc, hpacked, ← hchannels]
    simp

theorem rawIndex_last (f : ConvertFcn) {width height : ℕ} (hc : 0 < f.channels) (hw : 0 < width) (hh : 0 < height) :
    f.rawIndex width height ⟨f.channels - 1, height - 1, width - 1⟩ + 1 = f.channels * height * width := by
  obtain ⟨c, hc⟩ := Nat.exists_eq_add_of_lt hc
  obtain ⟨w, rfl⟩ := Nat.exists_eq_add_of_lt hw
  obtain ⟨h, rfl⟩ := Nat.exists_eq_add_of_lt hh
  rw [Nat.zero_add] at hc
  unfold ConvertFcn.rawIndex
  rw [hc]
  simp only [Nat.zero_add, Nat.add_sub_cancel]
  split <;> ring

theorem converts_iff (hcolours : impl.networkInputFormat.colours.length = impl.channels) (hpos : 0 < impl.channels)
    (hreads : Reads impl.networkInputFormat pool f) (hlaid : LaidOut impl.inputOrder f) :
    Converts impl dataType pool f ↔ impl.inputOrder ≠ .custom ∧ outTypeOf dataType = some f.outType ∧
      impl.channels * impl.height * impl.width ≤ 2 ^ 32 := by
  obtain ⟨hlength, hpixel, hcolour⟩ := hreads
  have hchannels : f.channels = impl.channels := hlength.trans hcolours
  constructor
  · intro h
    refine ⟨h.order, h.type, ?_⟩
    by_contra hlarge
    have hw : 0 < impl.width := Nat.pos_of_ne_zero fun h0 => by simp [h0] at hlarge
    have hh : 0 < impl.height := Nat.pos_of_ne_zero fun h0 => by simp [h0] at hlarge
    have hinside : f.Inside impl.width impl.height ⟨f.channels - 1, impl.height - 1, impl.width - 1⟩ :=
      ⟨by dsimp only; omega, by dsimp only; omega, by dsimp only; omega⟩
    -- the last element is not where a 32-bit index can be
    have hlast := rawIndex_last f (hchannels ▸ hpos) hw hh
    have hsame := (tensorIndex_eq hchannels hlaid h.order hinside).symm.trans (h.place _ hinside)
    rw [Option.some.injEq, ConvertFcn.outIndex_eq] at hsame
    have hlt := Nat.mod_lt (f.rawIndex impl.width impl.height ⟨f.channels - 1, impl.height - 1, impl.width - 1⟩)
      (Nat.two_pow_pos 32)
    rw [← hsame] at hlt
    rw [← hchannels] at hlarge
    omega
  · rintro ⟨horder, htype, hsize⟩
    refine ⟨hchannels, hpixel, fun k hk => ?_, horder, fun p hp => ?_, htype⟩
    · have hk' : k < impl.networkInputFormat.colours.length := hcolours.symm ▸ hk
      refine ⟨_, List.getElem?_eq_getElem hk', ?_⟩
      rw [← hcolour k (hchannels.symm ▸ hk)]
      exact List.getElem?_eq_getElem hk'
    · rw [tensorIndex_eq hchannels hlaid horder hp, hp.outIndex_eq_rawIndex (hchannels.symm ▸ hsize)]

/-! ### What is called -/

/-- The variable that is read for this data type. -/
def called (dataType : NvDsDataType) (selected : Selected) : Option ConvertFcn :=
  if dataType = .fp16 then selected.convertFcnHalf else selected.convertFcn

theorem convertUnits_unset : ∀ (i : ℕ) (units : List (ℕ → ℕ)), convertUnits impl dataType {} i units = some []
  | _, [] => rfl
  | i, _ :: units => by
    rw [convertUnits, if_neg (by simp)]
    exact convertUnits_unset (i + 1) units

theorem convertUnits_null {selected : Selected} (hset : selected.convertFcn.isSome ∨ selected.convertFcnHalf.isSome)
    (hcalled : called dataType selected = none) {i : ℕ} {units : List (ℕ → ℕ)} (hne : units ≠ []) :
    convertUnits impl dataType selected i units = none := by
  cases units with
  | nil => exact absurd rfl hne
  | cons frame units =>
    unfold called at hcalled
    rw [convertUnits, if_pos hset, hcalled]

theorem convertUnits_eq {selected : Selected} (hcalled : called dataType selected = some f) :
    ∀ (i : ℕ) (units : List (ℕ → ℕ)), convertUnits impl dataType selected i units =
      some (units.mapIdx fun j frame => Call.mk f (sliceOffset impl dataType (i + j)) frame)
  | _, [] => rfl
  | i, frame :: units => by
    have hset : selected.convertFcn.isSome ∨ selected.convertFcnHalf.isSome := by
      unfold called at hcalled
      split at hcalled
      · exact .inr (hcalled ▸ rfl)
      · exact .inl (hcalled ▸ rfl)
    have hrest := convertUnits_eq hcalled (i + 1) units
    unfold called at hcalled
    rw [convertUnits, if_pos hset, hcalled]
    dsimp only
    rw [hrest, Option.map_some, List.mapIdx_cons, Nat.add_zero]
    simp only [Nat.add_assoc, Nat.add_comm 1, Nat.add_zero]

theorem sliceOffset_eq (impl : NvDsPreProcessTensorImpl) (dataType : NvDsDataType) (i : ℕ) :
    sliceOffset impl dataType i = i * unitBytes impl dataType % 2 ^ 32 := by
  unfold sliceOffset unitBytes
  congr 1
  ring

theorem sliceOffset_eq_iff {n : ℕ} (hn : 0 < n) : (∀ i < n, sliceOffset impl dataType i = i * unitBytes impl dataType) ↔
    (n - 1) * unitBytes impl dataType < 2 ^ 32 := by
  simp only [sliceOffset_eq]
  constructor
  · intro h
    rw [← h (n - 1) (by omega)]
    exact Nat.mod_lt _ (Nat.two_pow_pos 32)
  · intro h i hi
    exact Nat.mod_eq_of_lt ((Nat.mul_le_mul_right _ (by omega)).trans_lt h)

/-- The calls of one function are right when it is, and the offsets do not wrap around. -/
theorem calls_iff (hcolours : impl.networkInputFormat.colours.length = impl.channels) (hpos : 0 < impl.channels)
    (hreads : Reads impl.networkInputFormat batch.scalingPoolFormat f) (hlaid : LaidOut impl.inputOrder f) :
    (∀ i frame, batch.units[i]? = some frame → ∃ g,
      (batch.units.mapIdx fun j frame => Call.mk f (sliceOffset impl dataType (0 + j)) frame)[i]? =
        some (Call.mk g (i * unitBytes impl dataType) frame) ∧ Converts impl dataType batch.scalingPoolFormat g) ↔
      batch.units = [] ∨ impl.inputOrder ≠ .custom ∧ outTypeOf dataType = some f.outType ∧
        NoOverflow impl batch dataType := by
  have hcall : ∀ i frame, batch.units[i]? = some frame →
      ((∃ g, (batch.units.mapIdx fun j frame => Call.mk f (sliceOffset impl dataType (0 + j)) frame)[i]? =
        some (Call.mk g (i * unitBytes impl dataType) frame) ∧ Converts impl dataType batch.scalingPoolFormat g) ↔
      sliceOffset impl dataType i = i * unitBytes impl dataType ∧ Converts impl dataType batch.scalingPoolFormat f) := by
    intro i frame hframe
    simp only [List.getElem?_mapIdx, hframe, Option.map_some, Option.some.injEq, Call.mk.injEq, Nat.zero_add, and_true]
    constructor
    · rintro ⟨g, ⟨rfl, hoffset⟩, hconverts⟩
      exact ⟨hoffset, hconverts⟩
    · rintro ⟨hoffset, hconverts⟩
      exact ⟨f, ⟨rfl, hoffset⟩, hconverts⟩
  have hconverts : Converts impl dataType batch.scalingPoolFormat f ↔ _ := converts_iff hcolours hpos hreads hlaid
  by_cases hne : batch.units = []
  · rw [hne]
    exact iff_of_true (fun i frame h => by cases h) (.inl rfl)
  · have hlength : 0 < batch.units.length := List.length_pos_iff.mpr hne
    rw [or_iff_right hne]
    constructor
    · intro h
      have hall : ∀ i < batch.units.length, sliceOffset impl dataType i = i * unitBytes impl dataType ∧
          Converts impl dataType batch.scalingPoolFormat f := fun i hi =>
        (hcall i _ (List.getElem?_eq_getElem hi)).mp (h i _ (List.getElem?_eq_getElem hi))
      obtain ⟨horder, htype, hsize⟩ := hconverts.mp (hall 0 hlength).2
      exact ⟨horder, htype, hsize, (sliceOffset_eq_iff hlength).mp fun i hi => (hall i hi).1⟩
    · rintro ⟨horder, htype, hsize, hoffset⟩ i frame hframe
      have hi : i < batch.units.length := (List.getElem?_eq_some_iff.mp hframe).1
      exact (hcall i frame hframe).mpr
        ⟨(sliceOffset_eq_iff hlength).mpr hoffset i hi, hconverts.mpr ⟨horder, htype, hsize⟩⟩

theorem Supported.channels (h : Supported impl.networkInputFormat pool) :
    impl.networkInputFormat.colours.length = impl.channels ∧ 0 < impl.channels := by
  rcases h with ⟨hcolour, -⟩ | ⟨hgray, -⟩
  · have hthree := impl.three_channels hcolour
    rw [hthree]
    rcases hcolour with hcolour | hcolour <;> rw [hcolour] <;> decide
  · rw [impl.one_channel hgray, hgray]
    decide

theorem outTypeOf_eq_float : outTypeOf dataType = some .float ↔ dataType = .fp32 := by
  cases dataType <;> decide

theorem outTypeOf_fp16 : outTypeOf .fp16 = some .half := rfl

/-- A function that writes floats is no good for halves: it is in the other variable. -/
theorem not_typeFits_of_float (hsupported : Supported impl.networkInputFormat batch.scalingPoolFormat)
    (hbranch : ¬(impl.networkInputFormat ≠ .gray ∧
      IsHalfBranch batch.scalingPoolFormat impl.inputOrder dataType)) (hhalf : dataType = .fp16) :
    ¬TypeFits impl batch dataType := by
  rintro (hfloat | ⟨-, hpool, horder⟩)
  · cases hhalf.symm.trans hfloat
  · refine hbranch ⟨fun hgray => ?_, hpool, horder, hhalf⟩
    rw [hgray, hpool] at hsupported
    exact absurd hsupported (by decide)

/-- For every configuration and batch: an error, or the right calls, exactly in these cases. -/
theorem prepareTensor_iff (impl : NvDsPreProcessTensorImpl) (batch : NvDsPreProcessBatch) (dataType : NvDsDataType) :
    Meets impl batch dataType ↔ MeetsWhen impl batch dataType := by
  unfold Meets MeetsWhen prepareTensor
  have hselects := selects_selectFcn impl batch dataType
  generalize selectFcn impl batch dataType = result at hselects ⊢
  cases hselects with
  | error hsupported => exact iff_of_true trivial (.inl hsupported)
  | nothing hsupported horder =>
    dsimp only
    rw [convertUnits_unset, or_iff_right (not_not.mpr hsupported)]
    constructor
    · intro h
      refine .inl (List.eq_nil_iff_forall_not_mem.mpr fun frame hframe => ?_)
      obtain ⟨i, hi⟩ := List.mem_iff_getElem?.mp hframe
      obtain ⟨g, hcall, -⟩ := h i frame hi
      cases hcall
    · rintro (hnil | h) i frame hi
      · rw [hnil] at hi
        cases hi
      · exact absurd horder h.1
  | chosen hsupported hchosen =>
    obtain ⟨hcolours, hpos⟩ := hsupported.channels
    rw [or_iff_right (not_not.mpr hsupported)]
    dsimp only
    cases hchosen with
    | float f hreads hlaid htype hbranch =>
      by_cases hhalf : dataType = .fp16
      · have hunfit := not_typeFits_of_float hsupported hbranch hhalf
        rw [or_iff_left fun h => hunfit h.2.1]
        by_cases hnil : batch.units = []
        · rw [hnil]
          exact iff_of_true (fun i frame hi => by cases hi) rfl
        · have hcalled : called dataType ⟨some f, none⟩ = none := if_pos hhalf
          rw [convertUnits_null (.inl rfl) hcalled hnil]
          exact iff_of_false id hnil
      · have hfits : TypeFits impl batch dataType ↔ outTypeOf dataType = some .float := by
          rw [outTypeOf_eq_float]
          exact or_iff_left fun h => hhalf h.1
        have hcalled : called dataType ⟨some f, none⟩ = some f := if_neg hhalf
        rw [convertUnits_eq hcalled, hfits, ← htype]
        exact calls_iff hcolours hpos hreads hlaid
    | half f hreads hlaid htype hbranch =>
      obtain ⟨hpool, horder, hhalf⟩ := hbranch
      have hfits : TypeFits impl batch dataType ↔ outTypeOf dataType = some .half :=
        iff_of_true (.inr ⟨hhalf, hpool, horder⟩) (hhalf ▸ outTypeOf_fp16)
      have hcalled : called dataType ⟨none, some f⟩ = some f := if_pos hhalf
      rw [convertUnits_eq hcalled, hfits, ← htype]
      exact calls_iff hcolours hpos hreads hlaid

/-- A half tensor of pixels, from pictures in RGBA. -/
def nhwcImpl : NvDsPreProcessTensorImpl where
  networkInputFormat := .rgb
  inputOrder := .nhwc
  channels := 3
  width := 2
  height := 2
  three_channels := fun _ => rfl
  one_channel := fun h => by cases h

def oneUnit : NvDsPreProcessBatch where
  units := [fun _ => 0]
  scalingPoolFormat := .rgba
  pitch := 8

/-- The variable for halves is not set, and called. -/
theorem not_meets_nhwcImpl : ¬Meets nhwcImpl oneUnit .fp16 := id

end Tensor
end Preprocess
end DeepStream
