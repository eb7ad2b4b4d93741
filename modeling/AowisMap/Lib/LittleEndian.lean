/-
Unsigned little-endian numbers in byte strings, of any width, written one
after the other and read at offsets.

# Writing and reading undo each other

`toBytes` and `ofBytes` are inverse on numbers that fit and on strings of
the width (`ofBytes_toBytes`, `toBytes_ofBytes`). For a format that is
read at fixed offsets the two useful forms are: a number read behind a
known prefix is the number that was written there (`readAt_append`), and
a string is, from any offset on, the number read there followed by what
stands behind it (`drop_eq_toBytes_append`). The first gives what a
reader returns on what a writer wrote, the second that nothing else is
accepted.
-/
import Mathlib.Algebra.Group.Nat.Defs
import Mathlib.Data.List.Basic

namespace AowisMap.Lib.LittleEndian

/-- The bytes of a number, lowest first. -/
def toBytes : Nat → Nat → List UInt8
  | 0, _ => []
  | width + 1, n => (n % 256).toUInt8 :: toBytes width (n / 256)

/-- The number some bytes write, lowest first. -/
def ofBytes : List UInt8 → Nat
  | [] => 0
  | b :: rest => b.toNat + 256 * ofBytes rest

/-- The number written at an offset. -/
def readAt (width : Nat) (data : List UInt8) (offset : Nat) : Nat :=
  ofBytes ((data.drop offset).take width)

@[simp] theorem length_toBytes (width n : Nat) :
    (toBytes width n).length = width := by
  induction width generalizing n with
  | zero => rfl
  | succ width ih => simp [toBytes, ih]

/-- A number that fits its width is read back. -/
theorem ofBytes_toBytes {width n : Nat} (h : n < 256 ^ width) :
    ofBytes (toBytes width n) = n := by
  induction width generalizing n with
  | zero =>
      simp only [Nat.pow_zero] at h
      simp only [toBytes, ofBytes]
      omega
  | succ width ih =>
      have hdiv : n / 256 < 256 ^ width := by
        rw [Nat.div_lt_iff_lt_mul (by decide)]
        rw [Nat.pow_succ] at h
        exact h
      simp only [toBytes, ofBytes, ih hdiv, Nat.toUInt8_eq,
        UInt8.toNat_ofNat']
      omega

/-- Bytes are what their number writes. -/
theorem toBytes_ofBytes (bytes : List UInt8) :
    toBytes bytes.length (ofBytes bytes) = bytes := by
  induction bytes with
  | nil => rfl
  | cons b rest ih =>
      have hb := b.toNat_lt
      have hlow : (b.toNat + 256 * ofBytes rest) % 256 = b.toNat := by omega
      have hhigh : (b.toNat + 256 * ofBytes rest) / 256 = ofBytes rest := by
        omega
      simp only [List.length_cons, ofBytes, toBytes, hlow, hhigh, ih]
      simp

/-- Numbers are below the bound of their width. -/
theorem ofBytes_lt (bytes : List UInt8) :
    ofBytes bytes < 256 ^ bytes.length := by
  induction bytes with
  | nil => simp [ofBytes]
  | cons b rest ih =>
      have hb := b.toNat_lt
      simp only [ofBytes, List.length_cons, Nat.pow_succ]
      omega

theorem readAt_lt (width : Nat) (data : List UInt8) (offset : Nat) :
    readAt width data offset < 256 ^ width :=
  Nat.lt_of_lt_of_le (ofBytes_lt _) (Nat.pow_le_pow_right (by decide)
    (List.length_take_le width _))

/-- What was written behind a prefix is read there. -/
theorem readAt_append {width n : Nat} (before after : List UInt8)
    (h : n < 256 ^ width) :
    readAt width (before ++ (toBytes width n ++ after)) before.length = n := by
  rw [readAt, List.drop_left, List.take_left' (length_toBytes width n),
    ofBytes_toBytes h]

/-- From an offset on, a string is the number read there and the rest. -/
theorem drop_eq_toBytes_append {width : Nat} {data : List UInt8}
    {offset : Nat} (h : offset + width ≤ data.length) :
    data.drop offset = toBytes width (readAt width data offset)
      ++ data.drop (offset + width) := by
  have hlength : ((data.drop offset).take width).length = width := by
    rw [List.length_take, List.length_drop]
    omega
  have hbytes := toBytes_ofBytes ((data.drop offset).take width)
  rw [hlength] at hbytes
  rw [readAt, hbytes, ← List.drop_drop, List.take_append_drop]

-- ===================================================== numbers in a row

/-- Numbers of one width, one after the other. -/
def flatten (width : Nat) (codes : List Nat) : List UInt8 :=
  codes.flatMap (toBytes width)

/-- The numbers in a string, as many as asked for. -/
def readAll (width : Nat) (data : List UInt8) (count : Nat) : List Nat :=
  (List.range count).map fun index => readAt width data (index * width)

theorem length_flatten (width : Nat) (codes : List Nat) :
    (flatten width codes).length = codes.length * width := by
  induction codes with
  | nil => simp [flatten]
  | cons code codes ih =>
      simp only [flatten, List.flatMap_cons, List.length_append,
        length_toBytes, List.length_cons] at ih ⊢
      rw [ih, Nat.succ_mul, Nat.add_comm]

theorem readAll_succ (width : Nat) (data : List UInt8) (count : Nat) :
    readAll width data (count + 1) = readAt width data 0
      :: readAll width (data.drop width) count := by
  simp only [readAll, List.range_succ_eq_map, List.map_cons, List.map_map,
    Nat.zero_mul]
  congr 1
  refine List.map_congr_left fun index _ => ?_
  simp only [Function.comp, readAt, List.drop_drop, Nat.succ_mul,
    Nat.add_comm]

@[simp] theorem length_readAll (width : Nat) (data : List UInt8)
    (count : Nat) : (readAll width data count).length = count := by
  simp [readAll]

/-- Numbers written in a row are read back. -/
theorem readAll_flatten {width : Nat} {codes : List Nat}
    (h : ∀ code ∈ codes, code < 256 ^ width) :
    readAll width (flatten width codes) codes.length = codes := by
  induction codes with
  | nil => rfl
  | cons code codes ih =>
      have hfirst := readAt_append [] (flatten width codes)
        (h code List.mem_cons_self)
      simp only [List.nil_append, List.length_nil] at hfirst
      have hcons : flatten width (code :: codes)
          = toBytes width code ++ flatten width codes := rfl
      rw [List.length_cons, readAll_succ, hcons, hfirst,
        List.drop_left' (length_toBytes width code),
        ih fun c hc => h c (List.mem_cons_of_mem code hc)]

/-- A string is what its numbers write. -/
theorem flatten_readAll {width count : Nat} {data : List UInt8}
    (h : data.length = count * width) :
    flatten width (readAll width data count) = data := by
  induction count generalizing data with
  | zero =>
      rw [Nat.zero_mul] at h
      rw [List.length_eq_zero_iff.1 h]
      rfl
  | succ count ih =>
      rw [Nat.succ_mul] at h
      have hdrop : (data.drop width).length = count * width := by
        rw [List.length_drop]
        omega
      have hlength : 0 + width ≤ data.length := by omega
      have hfirst := drop_eq_toBytes_append hlength
      rw [List.drop_zero, Nat.zero_add] at hfirst
      have hcons : flatten width (readAll width data (count + 1))
          = toBytes width (readAt width data 0)
            ++ flatten width (readAll width (data.drop width) count) := by
        rw [readAll_succ]
        rfl
      rw [hcons, ih hdrop, ← hfirst]

/-- Every number read fits the width. -/
theorem readAll_lt {width count : Nat} {data : List UInt8} {code : Nat}
    (h : code ∈ readAll width data count) : code < 256 ^ width := by
  obtain ⟨index, -, rfl⟩ := List.mem_map.1 h
  exact readAt_lt width data _

end AowisMap.Lib.LittleEndian
