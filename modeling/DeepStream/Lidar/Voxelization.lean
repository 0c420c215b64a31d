/-
# The kernels of the voxelization

`voxelization.cu`: the clouds of a batch are gone through one after the other. For each of them
`build_hash_table_kernel` gives the voxels numbers from a counter that runs on over the batch,
`voxelization_kernel` puts the points into the rows of their voxels, and
`compute_voxel_feature_kernel` goes over all voxels that the counter has counted. The threads of the
first two are run in any order of their atomic steps.

Coordinates are exact. A point is read as a whole, the numbers that it puts into its row are written
together and stand for its index, and what the last kernel computes is left out: only where it writes.
A cell of the grid that does not fit an `int` is not in the grid.
-/
import DeepStream.Lib.Probing
import DeepStream.Lib.RowMajor
import Mathlib.Data.Rat.Floor

namespace DeepStream
namespace Lidar

open Probing

structure Float3 where
  x : ℚ
  y : ℚ
  z : ℚ

structure Int3 where
  x : ℕ
  y : ℕ
  z : ℕ
  deriving DecidableEq

/-- `UINT32_MAX`, the key of an empty slot. -/
def emptyKey : ℕ := 2 ^ 32 - 1

structure VoxelizationParameter where
  min_range : Float3
  max_range : Float3
  voxel_size : Float3
  grid_size : Int3
  max_voxels : ℕ
  max_points_per_voxel : ℕ
  max_batch : ℕ
  max_points : ℕ
  grid_lt : grid_size.x * grid_size.y * grid_size.z < emptyKey
  voxel_pos : 0 < voxel_size.x ∧ 0 < voxel_size.y ∧ 0 < voxel_size.z
  points_pos : 0 < max_points_per_voxel

/-- The numbers of elements of the arrays. -/
structure Arrays where
  hashTable : ℕ
  perVoxelNum : ℕ
  voxelFeatures : ℕ
  voxelIndices : ℕ
  deriving DecidableEq

abbrev Cloud := List Float3

/-- An element that a kernel writes. -/
inductive Cell where
  | perVoxelNum (i : ℕ)
  | voxelFeatures (i : ℕ)
  | voxelIndices (i : ℕ)
  deriving DecidableEq

def Cell.Inside (a : Arrays) : Cell → Prop
  | .perVoxelNum i => i < a.perVoxelNum
  | .voxelFeatures i => i < a.voxelFeatures
  | .voxelIndices i => i < a.voxelIndices

/-- `hash`. -/
def hash (key : ℕ) : ℕ :=
  let k := UInt64.ofNat key
  let k := k ^^^ k >>> 16
  let k := k * 0x85ebca6b
  let k := k ^^^ k >>> 13
  let k := k * 0xc2b2ae35
  (k ^^^ k >>> 16).toNat

namespace VoxelizationParameter

variable (param : VoxelizationParameter)

def voxelFeatureSize : ℕ := 9

/-- The products of `int` have to fit; the sizes in bytes are kept in `unsigned int`. -/
def init : Option Arrays :=
  if 2 ^ 31 ≤ param.max_points * 2 * 2 ∨
      2 ^ 31 ≤ param.max_batch * param.max_voxels * param.max_points_per_voxel * voxelFeatureSize then none
  else some {
    hashTable := param.max_points * 2 * 2 * 4 % 2 ^ 32 / 4
    perVoxelNum := param.max_voxels * 4 % 2 ^ 32 / 4
    voxelFeatures := param.max_batch * param.max_voxels * param.max_points_per_voxel * voxelFeatureSize * 2 % 2 ^ 32 / 2
    voxelIndices := param.max_batch * param.max_voxels * 16 % 2 ^ 32 / 16 }

/-! ### Points and voxels -/

/-- The index of a point on one axis of the grid. -/
def cellAt (p low size : ℚ) (grid : ℕ) : Option ℕ :=
  let i := ⌊(p - low) / size⌋
  if i < 0 ∨ (grid : ℤ) ≤ i then none else some i.toNat

def voxelAt (p : Float3) : Option Int3 := do
  let x ← cellAt p.x param.min_range.x param.voxel_size.x param.grid_size.x
  let y ← cellAt p.y param.min_range.y param.voxel_size.y param.grid_size.y
  let z ← cellAt p.z param.min_range.z param.voxel_size.z param.grid_size.z
  some ⟨x, y, z⟩

def keyOf (voxel : Int3) : ℕ := ((voxel.z * param.grid_size.y + voxel.y) * param.grid_size.x + voxel.x) % 2 ^ 32

/-- The test of `voxelization_kernel`, which is not made before. -/
def InRange (p : Float3) : Prop :=
  (param.min_range.x ≤ p.x ∧ p.x < param.max_range.x) ∧ (param.min_range.y ≤ p.y ∧ p.y < param.max_range.y) ∧
    param.min_range.z ≤ p.z ∧ p.z < param.max_range.z

instance (p : Float3) : Decidable (param.InRange p) := inferInstanceAs (Decidable (_ ∧ _))

section

variable (cloud : Cloud)

/-- The key that the thread of a point has. -/
def keyAt (i : ℕ) : Option ℕ := (cloud[i]?.bind param.voxelAt).map param.keyOf

def hashSize : ℕ := cloud.length * 2

/-! ### `build_hash_table_kernel` -/

/-- Where a thread is: at the slot after `j` steps, behind the exchange that took a slot, behind
`atomicAdd`, or at its end. -/
inductive Insert where
  | probing (key j : ℕ)
  | counting (slot : ℕ)
  | storing (slot id : ℕ)
  | done
  deriving DecidableEq

/-- The two halves of the hash table, and `real_voxel_num`. -/
structure Build where
  keys : ℕ → Option ℕ
  values : ℕ → ℕ
  counter : ℕ
  threads : ℕ → Insert

/-- The keys are cleared, the values are what they were. -/
def Build.start (base : ℕ) (values : ℕ → ℕ) : Build where
  keys _ := none
  values := values
  counter := base
  threads i := match param.keyAt cloud i with
    | none => .done
    | some key => .probing key 0

/-- One atomic step of a thread. -/
def Build.step (s : Build) (i : ℕ) : Option Build :=
  match s.threads i with
  | .probing key j =>
    let slot := slotAt hash (hashSize cloud) key j
    match s.keys slot with
    | none => some { s with keys := Function.update s.keys slot (some key), threads := Function.update s.threads i (.counting slot) }
    | some preKey =>
      some { s with threads := Function.update s.threads i (if preKey = key then .done else .probing key (j + 1)) }
  | .counting slot =>
    some { s with counter := (s.counter + 1) % 2 ^ 32, threads := Function.update s.threads i (.storing slot s.counter) }
  | .storing slot id =>
    some { s with values := Function.update s.values slot id, threads := Function.update s.threads i .done }
  | .done => none

def Build.Done (s : Build) : Prop := ∀ i < cloud.length, s.threads i = .done

instance (s : Build) : Decidable (s.Done cloud) := inferInstanceAs (Decidable (∀ i < cloud.length, _))

/-- `lookup_hash_table`, in as many steps as there are slots. -/
def Build.lookup (s : Build) (key : ℕ) : Option ℕ :=
  (Probing.lookup hash (hashSize cloud) s.keys s.values key (hashSize cloud) 0).map fun id => id.getD emptyKey

/-! ### `voxelization_kernel` -/

/-- Where a thread is: before `atomicAdd`, behind it with the number it got, in a search that does not
end, or at its end. -/
inductive Store where
  | adding (id : ℕ)
  | writing (id currentNum : ℕ)
  | looping
  | done
  deriving DecidableEq

/-- The numbers of points of the voxels, and the rows of the features. -/
structure Scatter where
  counts : ℕ → ℕ
  rows : ℕ → ℕ → Option ℕ
  threads : ℕ → Store

/-- What a thread does before its first atomic step. -/
def entry (s : Build) (base i : ℕ) : Store :=
  match cloud[i]?, param.keyAt cloud i with
  | some p, some key =>
    if param.InRange p then
      match s.lookup cloud key with
      | none => .looping
      | some id =>
        let id := (id + 2 ^ 32 - base % 2 ^ 32) % 2 ^ 32
        if param.max_voxels ≤ id then .done else .adding id
    else .done
  | _, _ => .done

def Scatter.start (s : Build) (base : ℕ) (rows : ℕ → ℕ → Option ℕ) : Scatter where
  counts _ := 0
  rows := rows
  threads := param.entry cloud s base

def Scatter.step (t : Scatter) (i : ℕ) : Option Scatter :=
  match t.threads i with
  | .adding id =>
    let currentNum := t.counts id
    some { t with
      counts := Function.update t.counts id (currentNum + 1)
      threads := Function.update t.threads i (if param.max_points_per_voxel ≤ currentNum then .done else .writing id currentNum) }
  | .writing id currentNum =>
    some { t with
      rows := Function.update t.rows id (Function.update (t.rows id) currentNum (some i))
      threads := Function.update t.threads i .done }
  | .looping => some t
  | .done => none

def Scatter.Done (t : Scatter) : Prop := ∀ i < cloud.length, t.threads i = .done

/-- Where `_features` starts. -/
def features (base : ℕ) : ℕ := base * param.max_points_per_voxel % 2 ^ 32 * voxelFeatureSize % 2 ^ 32

/-- What the next step of a thread writes. -/
def Scatter.cells (t : Scatter) (base i : ℕ) : List Cell :=
  match t.threads i with
  | .adding id => [.perVoxelNum id]
  | .writing id currentNum =>
    .voxelIndices (base + id) :: (List.range 4).map fun k =>
      .voxelFeatures (param.features base + ((id * param.max_points_per_voxel + currentNum) * voxelFeatureSize + k) % 2 ^ 32)
  | _ => []

/-! ### `compute_voxel_feature_kernel` -/

/-- What a thread writes; `counts` is what it reads, in the array or behind it. -/
def computeCells (base numVoxels : ℕ) (counts : ℕ → ℕ) (block thread row : ℕ) : List Cell :=
  let ipoint := thread % param.max_points_per_voxel
  let innerVoxel := thread / param.max_points_per_voxel % 3
  let voxel := (block * 16 + row) * 3 + innerVoxel
  let offset := (voxel * param.max_points_per_voxel + ipoint) * voxelFeatureSize
  if numVoxels ≤ voxel ∨ 30 ≤ thread then []
  else if min (counts voxel) param.max_points_per_voxel ≤ ipoint then
    (List.range voxelFeatureSize).map fun k => .voxelFeatures (param.features base + (offset + k) % 2 ^ 32)
  else [4, 5, 6, 7, 8].map fun k => .voxelFeatures (param.features base + (offset + k) % 2 ^ 32)

end

end VoxelizationParameter

end Lidar
end DeepStream
