import KeyAudit.Text.Utf8

/-!
# Reading what is written in UTF-8

A character is written in UTF-8 with one to four octets. The first of them tells how many
there are, and each of the others adds six bits (`Pending.next?_octet`). Whoever reads them
one at a time comes to the character with its last octet (`decodeFrom_utf8EncodeChar`), so
characters that are written one after the other are read again (`decode_flatMap`).
-/

namespace KeyAudit.Text.Utf8

variable {n v : Nat}

theorem toNat_octet (h : n < 256) : (UInt8.ofNat n).toNat = n :=
  UInt8.toNat_ofNat_of_lt' h

theorem octet_eq_iff {m : Nat} (hm : m < 256) (hn : n < 256) :
    UInt8.ofNat m = UInt8.ofNat n ↔ m = n := by
  rw [← UInt8.toNat_inj, toNat_octet hm, toNat_octet hn]

/-! ## First octets -/

theorem begin?_one (h : n < 128) : begin? (UInt8.ofNat n) = some (.inl (Char.ofNat n)) := by
  simp only [begin?, UInt8.lt_iff_toNat_lt, toNat_octet (n := n) (by omega), UInt8.reduceToNat]
  rw [if_pos h]

theorem begin?_two (hlow : 2 ≤ v) (hhigh : v < 32) :
    begin? (UInt8.ofNat (v + 192)) =
      some (.inr ⟨UInt8.ofNat (v + 192), 1, v, 0, 0x80, 0xBF⟩) := by
  simp only [begin?, UInt8.lt_iff_toNat_lt, toNat_octet (n := v + 192) (by omega),
    UInt8.reduceToNat]
  rw [if_neg (by omega), if_neg (by omega), if_pos (by omega), Nat.add_sub_cancel]

/-- Three octets have to stand for more than two could, and for no surrogate. -/
theorem begin?_three (h : v < 16) :
    begin? (UInt8.ofNat (v + 224)) =
      some (.inr ⟨UInt8.ofNat (v + 224), 1, v, 1, if v = 0 then 0xA0 else 0x80,
        if v = 13 then 0x9F else 0xBF⟩) := by
  have hfirst : UInt8.ofNat (v + 224) = 0xE0 ↔ v = 0 :=
    (octet_eq_iff (n := 224) (by omega) (by omega)).trans (by omega)
  have hlast : UInt8.ofNat (v + 224) = 0xED ↔ v = 13 :=
    (octet_eq_iff (n := 237) (by omega) (by omega)).trans (by omega)
  simp only [begin?, UInt8.lt_iff_toNat_lt, toNat_octet (n := v + 224) (by omega),
    UInt8.reduceToNat, hfirst, hlast]
  rw [if_neg (by omega), if_neg (by omega), if_neg (by omega), if_pos (by omega),
    Nat.add_sub_cancel]

/-- Four octets have to stand for more than three could, and for a code point. -/
theorem begin?_four (h : v < 5) :
    begin? (UInt8.ofNat (v + 240)) =
      some (.inr ⟨UInt8.ofNat (v + 240), 1, v, 2, if v = 0 then 0x90 else 0x80,
        if v = 4 then 0x8F else 0xBF⟩) := by
  have hfirst : UInt8.ofNat (v + 240) = 0xF0 ↔ v = 0 :=
    (octet_eq_iff (n := 240) (by omega) (by omega)).trans (by omega)
  have hlast : UInt8.ofNat (v + 240) = 0xF4 ↔ v = 4 :=
    (octet_eq_iff (n := 244) (by omega) (by omega)).trans (by omega)
  simp only [begin?, UInt8.lt_iff_toNat_lt, toNat_octet (n := v + 240) (by omega),
    UInt8.reduceToNat, hfirst, hlast]
  rw [if_neg (by omega), if_neg (by omega), if_neg (by omega), if_neg (by omega),
    if_pos (by omega), Nat.add_sub_cancel]

/-! ## Other octets -/

/-- An octet within the bounds adds six bits, which make the character unless more octets
    are due. -/
theorem Pending.next?_octet {p : Pending} (h : v < 64) (hlow : p.low.toNat ≤ v + 128)
    (hhigh : v + 128 ≤ p.high.toNat) :
    p.next? (UInt8.ofNat (v + 128)) =
      match p.after with
      | 0 => some (.inl (Char.ofNat (p.bits * 64 + v)))
      | after + 1 => some (.inr ⟨p.lead, p.read + 1, p.bits * 64 + v, after, 0x80, 0xBF⟩) := by
  have hbits : v + 128 - 0x80 = v := Nat.add_sub_cancel v 128
  simp only [next?, UInt8.le_iff_toNat_le, toNat_octet (n := v + 128) (by omega), hbits]
  exact if_pos ⟨hlow, hhigh⟩

variable {lead low high : UInt8} {read bits : Nat} (pos : Nat) (done : List Char)
  (rest : List UInt8)

/-- After the first octet of several, the character has begun. -/
theorem decodeFrom_begin {b : UInt8} {p : Pending} (h : begin? b = some (.inr p)) :
    decodeFrom pos none done (b :: rest) = decodeFrom (pos + 1) (some p) done rest := by
  rw [decodeFrom, h]

/-- While more octets are due, an octet is read within the character. -/
theorem decodeFrom_inner {after : Nat} (h : v < 64) (hlow : low.toNat ≤ v + 128)
    (hhigh : v + 128 ≤ high.toNat) :
    decodeFrom pos (some ⟨lead, read, bits, after + 1, low, high⟩) done
        (UInt8.ofNat (v + 128) :: rest) =
      decodeFrom (pos + 1) (some ⟨lead, read + 1, bits * 64 + v, after, 0x80, 0xBF⟩) done rest := by
  rw [decodeFrom, Pending.next?_octet h hlow hhigh]

/-- The last octet makes the character. -/
theorem decodeFrom_last (h : v < 64) :
    decodeFrom pos (some ⟨lead, read, bits, 0, 0x80, 0xBF⟩) done (UInt8.ofNat (v + 128) :: rest) =
      decodeFrom (pos + 1) none (Char.ofNat (bits * 64 + v) :: done) rest := by
  have hlow : (0x80 : UInt8).toNat ≤ v + 128 := Nat.le_add_left 128 v
  have hhigh : v + 128 ≤ (0xBF : UInt8).toNat := Nat.add_le_add_right (Nat.le_of_lt_succ h) 128
  rw [decodeFrom, Pending.next?_octet h hlow hhigh]

/-! ## Characters -/

/-- The octets of a character are read as the character. -/
theorem decodeFrom_utf8EncodeChar (c : Char) :
    decodeFrom pos none done (String.utf8EncodeChar c ++ rest) =
      decodeFrom (pos + (String.utf8EncodeChar c).length) none (c :: done) rest := by
  have hvalid := c.valid
  have hc : Char.ofNat c.val.toNat = c := Char.ofNat_toNat c
  rw [UInt32.isValidChar, Nat.isValidChar] at hvalid
  simp only [String.utf8EncodeChar]
  generalize c.val.toNat = n at hvalid hc
  -- The octets hold the digits of the character to the base 64, the first one the rest.
  split
  · simp only [List.cons_append, List.nil_append, decodeFrom, begin?_one (n := n) (by omega), hc]
    rfl
  split
  · have hbits : n / 64 % 32 * 64 + n % 64 = n := by omega
    simp only [List.cons_append, List.nil_append]
    rw [decodeFrom_begin _ _ _ (begin?_two (by omega) (by omega)),
      decodeFrom_last _ _ _ (by omega), hbits, hc]
    rfl
  split
  · have hbits : (n / 4096 % 16 * 64 + n / 64 % 64) * 64 + n % 64 = n := by omega
    -- The bounds keep out what two octets could stand for, and the surrogates.
    have hlow : UInt8.toNat (if n / 4096 % 16 = 0 then 0xA0 else 0x80) ≤ n / 64 % 64 + 128 := by
      split <;> simp
      omega
    have hhigh : n / 64 % 64 + 128 ≤ UInt8.toNat (if n / 4096 % 16 = 13 then 0x9F else 0xBF) := by
      split <;> simp <;> omega
    simp only [List.cons_append, List.nil_append]
    rw [decodeFrom_begin _ _ _ (begin?_three (by omega)),
      decodeFrom_inner _ _ _ (by omega) hlow hhigh, decodeFrom_last _ _ _ (by omega), hbits, hc]
    rfl
  · have hbits : ((n / 262144 % 8 * 64 + n / 4096 % 64) * 64 + n / 64 % 64) * 64 + n % 64 = n := by
      omega
    -- The bounds keep out what three octets could stand for, and what is no code point.
    have hlow : UInt8.toNat (if n / 262144 % 8 = 0 then 0x90 else 0x80) ≤
        n / 4096 % 64 + 128 := by
      split <;> simp
      omega
    have hhigh : n / 4096 % 64 + 128 ≤
        UInt8.toNat (if n / 262144 % 8 = 4 then 0x8F else 0xBF) := by
      split <;> simp <;> omega
    simp only [List.cons_append, List.nil_append]
    rw [decodeFrom_begin _ _ _ (begin?_four (by omega)),
      decodeFrom_inner _ _ _ (by omega) hlow hhigh,
      decodeFrom_inner _ _ _ (by omega) (by simp) (by simp; omega),
      decodeFrom_last _ _ _ (by omega), hbits, hc]
    rfl

theorem decodeFrom_flatMap (pos : Nat) (done cs : List Char) :
    decodeFrom pos none done (cs.flatMap String.utf8EncodeChar) = .ok (done.reverse ++ cs) := by
  induction cs generalizing pos done with
  | nil => rw [List.flatMap_nil, decodeFrom, List.append_nil]
  | cons c cs ih =>
    rw [List.flatMap_cons, decodeFrom_utf8EncodeChar, ih, List.reverse_cons, List.append_assoc]
    rfl

/-- Characters that are written in UTF-8 are read again. -/
theorem decode_flatMap (cs : List Char) : decode (cs.flatMap String.utf8EncodeChar) = .ok cs :=
  decodeFrom_flatMap 0 [] cs

/-- The octets of a string are those of its characters. -/
theorem decode_toUTF8 (s : String) : decode s.toUTF8.data.toList = .ok s.toList := by
  rw [String.toUTF8_eq_toByteArray, ← String.utf8Encode_toList, List.utf8Encode,
    List.toList_data_toByteArray]
  exact decode_flatMap s.toList

end KeyAudit.Text.Utf8
