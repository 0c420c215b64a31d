/-
# The tensors of the custom box parsers

What the parsers of `nvdsinfer_custombboxparser.cpp` share: layers found by their names, reads of
their buffers, and the clipping to the network. Numbers are exact. A parser that aborts, lets an
exception through or goes beyond a buffer or a vector has no result (`none`).
-/
import DeepStream.Infer.Outputs

namespace DeepStream
namespace CustomParser

open Infer (NvDsInferDims NvDsInferDataType)

/-- What is in a buffer, read as `float` and as `int`. -/
structure Buffer where
  floats : List ℚ
  ints : List ℤ
  deriving DecidableEq, Repr

structure NvDsInferLayerInfo where
  dataType : NvDsInferDataType
  layerName : Option String
  inferDims : NvDsInferDims
  buffer : Option Buffer
  deriving DecidableEq, Repr

namespace NvDsInferLayerInfo

variable (layer : NvDsInferLayerInfo)

def dim (i : ℕ) : ℕ := layer.inferDims.d.getD i 0

/-- The numbers of the buffer; there is nothing to read from where there is no buffer. -/
def floats : List ℚ := (layer.buffer.map Buffer.floats).getD []

def ints : List ℤ := (layer.buffer.map Buffer.ints).getD []

end NvDsInferLayerInfo

/-- The first layer of `float` with the name. -/
def layerFinder (outputLayersInfo : List NvDsInferLayerInfo) (name : String) : Option NvDsInferLayerInfo :=
  outputLayersInfo.find? fun layer => layer.dataType = .float ∧ layer.layerName = some name

/-- The size of the input of a network, which has a column and a row. -/
structure NvDsInferNetworkInfo where
  width : ℕ
  height : ℕ
  width_pos : 0 < width
  height_pos : 0 < height

def NvDsInferNetworkInfo.eight : NvDsInferNetworkInfo := ⟨8, 8, by decide, by decide⟩

/-- `CLIP(a, 0, side - 1)`. -/
def clip (side : ℕ) (a : ℚ) : ℚ := max (min a (side - 1)) 0

/-! ### The greatest element -/

/-- The loop of `std::max_element`, where the greatest so far is `best`, at `i`. -/
def maxElementFrom (best : ℚ) (i j : ℕ) : List ℚ → ℕ
  | [] => i
  | x :: l => if best < x then maxElementFrom x j (j + 1) l else maxElementFrom best i (j + 1) l

/-- The position of the first of the greatest elements. -/
def maxElement : List ℚ → ℕ
  | [] => 0
  | x :: l => maxElementFrom x 0 1 l

theorem maxElementFrom_spec {best : ℚ} {i : ℕ} {front l : List ℚ} (hi : front[i]? = some best)
    (hmax : ∀ x ∈ front, x ≤ best) : ∃ m, (front ++ l)[maxElementFrom best i front.length l]? = some m ∧ ∀ x ∈ front ++ l, x ≤ m := by
  induction l generalizing best i front with
  | nil => exact ⟨best, by rwa [List.append_nil], by rwa [List.append_nil]⟩
  | cons x l ih =>
    have hlength : front.length + 1 = (front ++ [x]).length := by simp
    have hsplit : front ++ x :: l = (front ++ [x]) ++ l := by simp
    rw [maxElementFrom, hlength, hsplit]
    split
    · rename_i hlt
      refine ih (by simp) fun y hy => ?_
      rcases List.mem_append.mp hy with hy | hy
      · exact (hmax y hy).trans hlt.le
      · rw [List.mem_singleton.mp hy]
    · rename_i hle
      refine ih (by rw [List.getElem?_append_left (List.getElem?_eq_some_iff.mp hi).1, hi]) fun y hy => ?_
      rcases List.mem_append.mp hy with hy | hy
      · exact hmax y hy
      · rw [List.mem_singleton.mp hy]
        exact not_lt.mp hle

/-- No element of a list is greater. -/
theorem maxElement_spec {l : List ℚ} (hne : l ≠ []) : ∃ m, l[maxElement l]? = some m ∧ ∀ x ∈ l, x ≤ m := by
  obtain ⟨x, l, rfl⟩ := List.exists_cons_of_ne_nil hne
  have hfront : [x][0]? = some x := rfl
  exact maxElementFrom_spec hfront (by simp)

theorem maxElement_lt {l : List ℚ} (hne : l ≠ []) : maxElement l < l.length := by
  obtain ⟨m, hm, -⟩ := maxElement_spec hne
  exact (List.getElem?_eq_some_iff.mp hm).1

end CustomParser
end DeepStream
