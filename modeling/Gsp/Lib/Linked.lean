import Gsp.Lib.Region

/-!
# Lists linked through memory

A pointer is stored as bytes, least significant first. A list of cells is linked
through memory if the pointer stored in each cell leads to the next one.
-/

namespace Pointer

/-- The bytes of a pointer of the given width. -/
def encode : (width value : ℕ) → List UInt8
  | 0, _ => []
  | width + 1, value => UInt8.ofNat (value % 256) :: encode width (value / 256)

/-- Little-endian bytes as a number. -/
def decode : List UInt8 → ℕ
  | [] => 0
  | byte :: bytes => byte.toNat + 256 * decode bytes

/-- The word at an address. -/
def load (width : ℕ) (memory : ℕ → UInt8) (address : ℕ) : ℕ :=
  decode (Region.read memory address width)

/-- The memory after a word has been stored. -/
def store (width : ℕ) (memory : ℕ → UInt8) (address value : ℕ) : ℕ → UInt8 :=
  Region.write memory address (encode width value)

@[simp]
theorem length_encode (width value : ℕ) : (encode width value).length = width := by
  induction width generalizing value with
  | zero => rfl
  | succ width ih => rw [encode, List.length_cons, ih]

/-- A pointer is read as it was written. -/
theorem decode_encode {width value : ℕ} (lt : value < 256 ^ width) :
    decode (encode width value) = value := by
  induction width generalizing value with
  | zero =>
      rw [Nat.pow_zero, Nat.lt_one_iff] at lt
      rw [lt]
      rfl
  | succ width ih =>
      have smaller : value / 256 < 256 ^ width := by
        apply Nat.div_lt_of_lt_mul
        rwa [Nat.mul_comm, ← Nat.pow_succ]
      have byte : (UInt8.ofNat (value % 256)).toNat = value % 256 := by
        rw [UInt8.toNat_ofNat']
        omega
      rw [encode, decode, ih smaller, byte]
      exact Nat.mod_add_div value 256

theorem decode_lt (bytes : List UInt8) : decode bytes < 256 ^ bytes.length := by
  induction bytes with
  | nil => exact Nat.one_pos
  | cons byte bytes ih =>
      have small := byte.toNat_lt
      rw [decode, List.length_cons, Nat.pow_succ]
      omega

theorem load_lt (width : ℕ) (memory : ℕ → UInt8) (address : ℕ) :
    load width memory address < 256 ^ width := by
  have bound := decode_lt (Region.read memory address width)
  rwa [Region.length_read] at bound

/-- A stored pointer is loaded again. -/
theorem load_store_self {width value : ℕ} (lt : value < 256 ^ width) (memory : ℕ → UInt8)
    (address : ℕ) : load width (store width memory address value) address = value := by
  have stored := Region.read_write_self memory address (encode width value)
  rw [length_encode] at stored
  rw [load, store, stored, decode_encode lt]

theorem load_write_of_disjoint {width address start : ℕ} {bytes : List UInt8}
    (memory : ℕ → UInt8) (disjoint : address + width ≤ start ∨ start + bytes.length ≤ address) :
    load width (Region.write memory start bytes) address = load width memory address := by
  rw [load, load, Region.read_write_of_disjoint memory disjoint]

/-- Storing a pointer leaves the cells that do not overlap it. -/
theorem load_store_of_disjoint {width address other value : ℕ} (memory : ℕ → UInt8)
    (disjoint : address + width ≤ other ∨ other + width ≤ address) :
    load width (store width memory other value) address = load width memory address := by
  apply load_write_of_disjoint
  rwa [length_encode]

end Pointer

/-- From `head` the links lead through these cells to `last`. -/
def Linked (width : ℕ) (memory : ℕ → UInt8) (head : ℕ) : List ℕ → ℕ → Prop
  | [], last => head = last
  | cell :: cells, last =>
      head = cell ∧ Linked width memory (Pointer.load width memory cell) cells last

namespace Linked

variable {width head last : ℕ} {memory other : ℕ → UInt8} {cells : List ℕ}

/-- A list depends on its own cells only. -/
theorem congr
    (agree : ∀ cell ∈ cells, Pointer.load width other cell = Pointer.load width memory cell)
    (linked : Linked width memory head cells last) : Linked width other head cells last := by
  induction cells generalizing head with
  | nil => exact linked
  | cons cell cells ih =>
      refine ⟨linked.1, ?_⟩
      rw [agree cell List.mem_cons_self]
      apply ih _ linked.2
      intro later laterMem
      exact agree later (List.mem_cons_of_mem cell laterMem)

/-- Stores that keep clear of the link words keep the list. -/
theorem write {start : ℕ} {bytes : List UInt8}
    (disjoint : ∀ cell ∈ cells, cell + width ≤ start ∨ start + bytes.length ≤ cell)
    (linked : Linked width memory head cells last) :
    Linked width (Region.write memory start bytes) head cells last :=
  linked.congr fun cell cellMem => Pointer.load_write_of_disjoint memory (disjoint cell cellMem)

/-- A new front cell that points to the old front. -/
theorem push {cell : ℕ} (lt : head < 256 ^ width)
    (disjoint : ∀ later ∈ cells, later + width ≤ cell ∨ cell + width ≤ later)
    (linked : Linked width memory head cells last) :
    Linked width (Pointer.store width memory cell head) cell (cell :: cells) last := by
  refine ⟨rfl, ?_⟩
  rw [Pointer.load_store_self lt]
  exact linked.congr fun later laterMem =>
    Pointer.load_store_of_disjoint memory (disjoint later laterMem)

/-- One more cell at the end. -/
theorem snoc {cell : ℕ} (leads : Pointer.load width memory cell = last)
    (linked : Linked width memory head cells cell) :
    Linked width memory head (cells ++ [cell]) last := by
  induction cells generalizing head with
  | nil => exact ⟨linked, leads⟩
  | cons first cells ih => exact ⟨linked.1, ih linked.2⟩

/-- A list that ends in null and has no null cell is empty exactly if its head is null. -/
theorem head_eq_iff (cellsValid : ∀ cell ∈ cells, cell ≠ last)
    (linked : Linked width memory head cells last) : head = last ↔ cells = [] := by
  cases cells with
  | nil => exact iff_of_true linked rfl
  | cons cell cells =>
      refine iff_of_false ?_ (List.cons_ne_nil cell cells)
      rw [linked.1]
      exact cellsValid cell List.mem_cons_self

end Linked
