import Mathlib.Algebra.Ring.Nat
import Mathlib.Data.List.Basic

/-!
# Blocks of memory that are filled in order

An allocated block has a fixed number of elements, none of them set. A store or a read
outside the block, or the read of an element that was never set, leaves defined behaviour. A
block holds a list of samples when these are its first elements and the others are not set;
it keeps them when the next one is stored behind them and when the block is made larger.
-/

namespace NodePower

/-- Why a program stops before its end. -/
inductive Stop where
  | outOfBounds
  | allocationFailed
  deriving DecidableEq

/-- A block of memory for elements of one type. -/
structure Block (A : Type*) where
  cells : List (Option A)

/-- An allocator, by the sizes in bytes that it provides. No object is larger than the difference of
two pointers can say. -/
structure Allocator where
  provides : ℕ → Bool
  provides_lt : ∀ size, provides size = true → size < 2 ^ 63

namespace Block

variable {A : Type*}

/-- A new block. -/
def allocate (size : ℕ) : Block A := ⟨List.replicate size none⟩

/-- The block with another number of elements and the old ones as far as they fit. -/
def reallocate (block : Block A) (size : ℕ) : Block A :=
  ⟨block.cells.take size ++ List.replicate (size - block.cells.length) none⟩

/-- Set one element. -/
def store (block : Block A) (i : ℕ) (a : A) : Except Stop (Block A) :=
  if i < block.cells.length then .ok ⟨block.cells.set i (some a)⟩ else .error .outOfBounds

/-- Read one element. -/
def read (block : Block A) (i : ℕ) : Except Stop A :=
  match block.cells[i]? with
  | some (some a) => .ok a
  | _ => .error .outOfBounds

/-- Read the first elements in order. -/
def readUpTo (block : Block A) : ℕ → Except Stop (List A)
  | 0 => .ok []
  | count + 1 => do
    let earlier ← block.readUpTo count
    let last ← block.read count
    return earlier ++ [last]

/-- The samples are the first elements of the block, and the others are not set. -/
def Holds (block : Block A) (samples : List A) : Prop :=
  ∃ room, block.cells = samples.map some ++ List.replicate room none

variable {block : Block A} {samples : List A}

/-- A new block holds nothing. -/
theorem holds_allocate (size : ℕ) : (allocate size : Block A).Holds [] := ⟨size, rfl⟩

/-- The size of a new block. -/
@[simp] theorem length_allocate (size : ℕ) : (allocate size : Block A).cells.length = size :=
  List.length_replicate

/-- The size of a block that was made larger. -/
theorem length_reallocate {size : ℕ} (h : block.cells.length ≤ size) :
    (block.reallocate size).cells.length = size := by
  simp only [reallocate, List.length_append, List.length_take, List.length_replicate]
  omega

/-- A block that holds samples has room for them. -/
theorem Holds.length_le (h : block.Holds samples) : samples.length ≤ block.cells.length := by
  obtain ⟨room, hcells⟩ := h
  simp [hcells]

/-- A larger block holds the same samples. -/
theorem Holds.reallocate (h : block.Holds samples) {size : ℕ} (hsize : block.cells.length ≤ size) :
    (block.reallocate size).Holds samples := by
  obtain ⟨room, hcells⟩ := h
  refine ⟨room + (size - block.cells.length), ?_⟩
  rw [Block.reallocate, List.take_of_length_le hsize, hcells, List.append_assoc,
    List.replicate_append_replicate]

/-- The next sample is stored behind those the block holds. -/
theorem Holds.store (h : block.Holds samples) (hroom : samples.length < block.cells.length) (a : A) :
    ∃ next, block.store samples.length a = .ok next ∧ next.Holds (samples ++ [a]) ∧
      next.cells.length = block.cells.length := by
  obtain ⟨room, hcells⟩ := h
  refine ⟨_, if_pos hroom, ?_, List.length_set⟩
  have hlength : block.cells.length = samples.length + room := by simp [hcells]
  obtain ⟨rest, rfl⟩ : ∃ rest, room = rest + 1 := ⟨room - 1, by omega⟩
  refine ⟨rest, ?_⟩
  simp [hcells, List.replicate_succ]

/-- Nothing is stored behind the end of a block. -/
theorem store_eq_error {i : ℕ} (h : block.cells.length ≤ i) (a : A) :
    block.store i a = .error .outOfBounds := if_neg (Nat.not_lt.mpr h)

/-- The samples that a block holds are read back in order. -/
theorem Holds.readUpTo (h : block.Holds samples) {count : ℕ} (hcount : count ≤ samples.length) :
    block.readUpTo count = .ok (samples.take count) := by
  obtain ⟨room, hcells⟩ := h
  induction count with
  | zero => rfl
  | succ count ih =>
    have hread : block.read count = .ok samples[count] := by
      have hmapped : count < (samples.map some).length := by
        rw [List.length_map]
        exact hcount
      have hcell : block.cells[count]? = some (some samples[count]) := by
        rw [hcells, List.getElem?_append_left hmapped, List.getElem?_map,
          List.getElem?_eq_getElem hcount, Option.map_some]
      rw [read, hcell]
    rw [Block.readUpTo, ih (Nat.le_of_succ_le hcount), hread, List.take_succ_eq_append_getElem hcount]
    rfl

end Block

end NodePower
