import Mathlib
import TrafficSheet.Bytes

/-!
# Reading back what was written

A number written in some bytes, in either order, takes that many bytes, and is read back if
it fits them. Bytes in turn are what is written of the number that they spell. A field of
bytes that are put together is found in the part that it lies in.
-/

namespace TrafficSheet.Bytes

@[simp] theorem length_ofLittle (width n : Nat) : (ofLittle width n).length = width := by
  induction width generalizing n with
  | zero => rfl
  | succ width ih => simp [ofLittle, ih]

@[simp] theorem length_ofValue (order : ByteOrder) (width n : Nat) :
    (ofValue order width n).length = width := by
  cases order <;> simp [ofValue]

theorem bigValue_append (front : Bytes) (byte : UInt8) :
    bigValue (front ++ [byte]) = bigValue front * 256 + byte.toNat := by
  simp [bigValue, List.foldl_append]

/-- Reading backwards turns one order into the other. -/
theorem bigValue_reverse (bytes : Bytes) : bigValue bytes.reverse = littleValue bytes := by
  induction bytes with
  | nil => rfl
  | cons byte rest ih =>
    rw [List.reverse_cons, bigValue_append, ih]
    simp only [littleValue, List.foldr_cons]
    omega

theorem littleValue_cons (byte : UInt8) (rest : Bytes) :
    littleValue (byte :: rest) = byte.toNat + 256 * littleValue rest := rfl

theorem littleValue_ofLittle (width n : Nat) :
    littleValue (ofLittle width n) = n % 256 ^ width := by
  induction width generalizing n with
  | zero => simp [ofLittle, littleValue, Nat.mod_one]
  | succ width ih =>
    have low : (UInt8.ofNat (n % 256)).toNat = n % 256 := by simp
    have step : littleValue (ofLittle (width + 1) n)
        = n % 256 + 256 * littleValue (ofLittle width (n / 256)) := by
      simp [ofLittle, littleValue]
    rw [step, ih, Nat.pow_succ, Nat.mul_comm (256 ^ width) 256, Nat.mod_mul]

/-- A number that fits its width is read back as it was written, in either order. -/
theorem value_ofValue (order : ByteOrder) {width n : Nat} (fits : n < 256 ^ width) :
    value order (ofValue order width n) = n := by
  cases order with
  | little => simp only [value, ofValue, littleValue_ofLittle, Nat.mod_eq_of_lt fits]
  | big =>
    simp only [value, ofValue, bigValue_reverse, littleValue_ofLittle, Nat.mod_eq_of_lt fits]

theorem littleValue_lt (bytes : Bytes) : littleValue bytes < 256 ^ bytes.length := by
  induction bytes with
  | nil => exact Nat.one_pos
  | cons byte rest ih =>
    have hbyte : byte.toNat < 256 := byte.toNat_lt
    rw [littleValue_cons, List.length_cons, Nat.pow_succ]
    omega

/-- Bytes spell a number that fits them, in either order. -/
theorem value_lt (order : ByteOrder) (bytes : Bytes) : value order bytes < 256 ^ bytes.length := by
  cases order with
  | little => exact littleValue_lt bytes
  | big =>
    have hlt := littleValue_lt bytes.reverse
    rwa [← bigValue_reverse, List.reverse_reverse, List.length_reverse] at hlt

theorem ofLittle_littleValue (bytes : Bytes) : ofLittle bytes.length (littleValue bytes) = bytes := by
  induction bytes with
  | nil => rfl
  | cons byte rest ih =>
    have hbyte : byte.toNat < 256 := byte.toNat_lt
    have hlow : (byte.toNat + 256 * littleValue rest) % 256 = byte.toNat := by omega
    have hhigh : (byte.toNat + 256 * littleValue rest) / 256 = littleValue rest := by omega
    rw [littleValue_cons, List.length_cons, ofLittle, hlow, hhigh, ih, UInt8.ofNat_toNat]

/-- Bytes are what is written of the number that they spell, in either order. -/
theorem ofValue_value (order : ByteOrder) (bytes : Bytes) :
    ofValue order bytes.length (value order bytes) = bytes := by
  cases order with
  | little => exact ofLittle_littleValue bytes
  | big =>
    have hreversed := ofLittle_littleValue bytes.reverse
    rw [← bigValue_reverse, List.reverse_reverse, List.length_reverse] at hreversed
    simp only [ofValue, value, hreversed, List.reverse_reverse]

/-! ### Fields of bytes that are put together -/

theorem field_zero_append {front : Bytes} {width : Nat} (h : front.length = width) (rest : Bytes) :
    field 0 width (front ++ rest) = front := by
  rw [field, List.drop_zero, List.take_left' h]

theorem field_append_of_le {front : Bytes} {offset : Nat} (h : front.length ≤ offset)
    (width : Nat) (rest : Bytes) :
    field offset width (front ++ rest) = field (offset - front.length) width rest := by
  rw [field, field, List.drop_append, List.drop_eq_nil_of_le h, List.nil_append]

theorem field_append_left {front : Bytes} {offset width : Nat} (h : offset + width ≤ front.length)
    (rest : Bytes) : field offset width (front ++ rest) = field offset width front := by
  have hoffset : offset ≤ front.length := by omega
  rw [field, field, List.drop_append_of_le_length hoffset, List.take_append_of_le_length]
  rw [List.length_drop]
  omega

theorem byteAt_append_of_le {front : Bytes} {offset : Nat} (h : front.length ≤ offset)
    (rest : Bytes) : byteAt offset (front ++ rest) = byteAt (offset - front.length) rest := by
  rw [byteAt, byteAt, List.getD_append_right _ _ _ _ h]

theorem byteAt_append_left {front : Bytes} {offset : Nat} (h : offset < front.length)
    (rest : Bytes) : byteAt offset (front ++ rest) = byteAt offset front := by
  rw [byteAt, byteAt, List.getD_append _ _ _ _ h]

theorem byteAt_take {offset n : Nat} (h : offset < n) (bytes : Bytes) :
    byteAt offset (bytes.take n) = byteAt offset bytes := by
  rw [byteAt, byteAt, List.getD_eq_getElem?_getD, List.getD_eq_getElem?_getD,
    List.getElem?_take_of_lt h]

/-- Where bytes are cut off, a byte is lost or stays as it is. -/
theorem byteAt_take_eq_or (offset n : Nat) (bytes : Bytes) :
    byteAt offset (bytes.take n) = byteAt offset bytes ∨ byteAt offset (bytes.take n) = 0 := by
  by_cases h : offset < n
  · exact .inl (byteAt_take h bytes)
  · refine .inr ?_
    rw [byteAt, List.getD_eq_default _ _ (by rw [List.length_take]; omega)]
    rfl

theorem field_append_drop (offset width : Nat) (bytes : Bytes) :
    field offset width bytes ++ bytes.drop (offset + width) = bytes.drop offset := by
  rw [field, ← List.drop_drop, List.take_append_drop]

theorem length_field {offset width : Nat} {bytes : Bytes} (h : offset + width ≤ bytes.length) :
    (field offset width bytes).length = width := by
  rw [field, List.length_take, List.length_drop]
  omega

theorem value_field_lt (order : ByteOrder) {offset width : Nat} {bytes : Bytes}
    (h : offset + width ≤ bytes.length) : value order (field offset width bytes) < 256 ^ width := by
  have hlt := value_lt order (field offset width bytes)
  rwa [length_field h] at hlt

theorem ofValue_value_field (order : ByteOrder) {offset width : Nat} {bytes : Bytes}
    (h : offset + width ≤ bytes.length) :
    ofValue order width (value order (field offset width bytes)) = field offset width bytes := by
  have hback := ofValue_value order (field offset width bytes)
  rwa [length_field h] at hback

end TrafficSheet.Bytes
