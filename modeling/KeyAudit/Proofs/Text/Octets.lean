import KeyAudit.Proofs.Text.Utf8

/-!
# Octets that are read

Octets are read as characters only if they are those that the characters are written with
(`decode_eq_ok_iff`), so what can be read is just what is UTF-8 (`isText_iff`). While a
character is being read, its octets so far and those that may follow are what it is written
with (`Pending.Begins`); every octet that is read keeps it so.

So reading goes on the same way after a line feed as at the beginning, as its octet is in no
other character: octets with a line feed between them are read exactly if those on both sides
are, and as their characters (`decode_lineFeed_iff`).
-/

namespace KeyAudit.Text.Utf8

/-! ## Characters that have begun -/

/-- The code point of some bits and more octets, each of which adds six bits. -/
def assemble (bits : Nat) (vs : List Nat) : Nat := vs.foldl (fun bits v => bits * 64 + v) bits

/-- The octets that add bits to a character. -/
def innerOctets (vs : List Nat) : List UInt8 := vs.map fun v => UInt8.ofNat (v + 128)

/-- Some octets have begun a character: whatever octets go on with it within the bounds, it
    is written with all of them. -/
structure Pending.Begins (p : Pending) (octets : List UInt8) : Prop where
  low : 0x80 ≤ p.low.toNat
  high : p.high.toNat ≤ 0xBF
  encode : ∀ v vs, vs.length = p.after → p.low.toNat ≤ v + 128 → v + 128 ≤ p.high.toNat →
    (∀ w ∈ vs, w < 64) →
    String.utf8EncodeChar (Char.ofNat (assemble p.bits (v :: vs))) =
      octets ++ innerOctets (v :: vs)

theorem utf8EncodeChar_ofNat {n : Nat} (h : n.isValidChar) :
    String.utf8EncodeChar (Char.ofNat n) =
      if n ≤ 127 then [UInt8.ofNat n]
      else if n ≤ 2047 then [UInt8.ofNat (n / 64 % 32 + 192), UInt8.ofNat (n % 64 + 128)]
      else if n ≤ 65535 then
        [UInt8.ofNat (n / 4096 % 16 + 224), UInt8.ofNat (n / 64 % 64 + 128),
          UInt8.ofNat (n % 64 + 128)]
      else
        [UInt8.ofNat (n / 262144 % 8 + 240), UInt8.ofNat (n / 4096 % 64 + 128),
          UInt8.ofNat (n / 64 % 64 + 128), UInt8.ofNat (n % 64 + 128)] := by
  have hn : (Char.ofNat n).val.toNat = n := by
    rw [Char.ofNat, dif_pos h]
    rfl
  rw [String.utf8EncodeChar, hn]

theorem eq_octet {b : UInt8} {n : Nat} (h : b.toNat = n) : UInt8.ofNat n = b := by
  rw [← h, UInt8.ofNat_toNat]

/-- One octet goes on with a character that could not be written with less. -/
theorem begins_two {b : UInt8} (hlow : 0xC2 ≤ b.toNat) (hhigh : b.toNat < 0xE0) :
    Pending.Begins ⟨b, 1, b.toNat - 0xC0, 0, 0x80, 0xBF⟩ [b] where
  low := Nat.le_refl _
  high := Nat.le_refl _
  encode := by
    rintro v vs hvs hv hv' -
    obtain rfl := List.length_eq_zero_iff.1 hvs
    have hv' : v + 128 ≤ 0xBF := hv'
    have hn : assemble (b.toNat - 0xC0) [v] = (b.toNat - 0xC0) * 64 + v := rfl
    rw [hn]
    generalize he : (b.toNat - 0xC0) * 64 + v = n
    have hlead : UInt8.ofNat (n / 64 % 32 + 192) = b := eq_octet (by omega)
    have hend : n % 64 = v := by omega
    rw [utf8EncodeChar_ofNat (.inl (by omega)), if_neg (by omega), if_pos (by omega), hlead, hend]
    rfl

/-- Two octets go on with a character that could not be written with fewer, and is no
    surrogate. -/
theorem begins_three {b low high : UInt8} (hb : 0xE0 ≤ b.toNat) (hb' : b.toNat < 0xF0)
    (hlow : 0x80 ≤ low.toNat) (hfirst : b = 0xE0 → 0xA0 ≤ low.toNat)
    (hhigh : high.toNat ≤ 0xBF) (hlast : b = 0xED → high.toNat ≤ 0x9F) :
    Pending.Begins ⟨b, 1, b.toNat - 0xE0, 1, low, high⟩ [b] where
  low := hlow
  high := hhigh
  encode := by
    intro v vs hvs hv hv' hrest
    obtain ⟨w, rfl⟩ := List.length_eq_one_iff.1 hvs
    have hw : w < 64 := hrest w List.mem_cons_self
    have hv : low.toNat ≤ v + 128 := hv
    have hv' : v + 128 ≤ high.toNat := hv'
    have hfirst : b.toNat = 0xE0 → 0xA0 ≤ low.toNat := fun h => hfirst (UInt8.toNat_inj.1 h)
    have hlast : b.toNat = 0xED → high.toNat ≤ 0x9F := fun h => hlast (UInt8.toNat_inj.1 h)
    have hn : assemble (b.toNat - 0xE0) [v, w] = ((b.toNat - 0xE0) * 64 + v) * 64 + w := rfl
    rw [hn]
    generalize he : ((b.toNat - 0xE0) * 64 + v) * 64 + w = n
    have hvalid : n.isValidChar := by
      rw [Nat.isValidChar]
      omega
    have hlead : UInt8.ofNat (n / 4096 % 16 + 224) = b := eq_octet (by omega)
    have hmiddle : n / 64 % 64 = v := by omega
    have hend : n % 64 = w := by omega
    rw [utf8EncodeChar_ofNat hvalid, if_neg (by omega), if_neg (by omega), if_pos (by omega),
      hlead, hmiddle, hend]
    rfl

/-- Three octets go on with a character that could not be written with fewer, and is within
    the code points. -/
theorem begins_four {b low high : UInt8} (hb : 0xF0 ≤ b.toNat) (hb' : b.toNat < 0xF5)
    (hlow : 0x80 ≤ low.toNat) (hfirst : b = 0xF0 → 0x90 ≤ low.toNat)
    (hhigh : high.toNat ≤ 0xBF) (hlast : b = 0xF4 → high.toNat ≤ 0x8F) :
    Pending.Begins ⟨b, 1, b.toNat - 0xF0, 2, low, high⟩ [b] where
  low := hlow
  high := hhigh
  encode := by
    intro v vs hvs hv hv' hrest
    obtain ⟨w, rest, rfl⟩ := List.exists_cons_of_length_eq_add_one hvs
    obtain ⟨x, rfl⟩ := List.length_eq_one_iff.1 (Nat.succ.inj hvs)
    have hw : w < 64 := hrest w List.mem_cons_self
    have hx : x < 64 := hrest x (List.mem_cons_of_mem _ List.mem_cons_self)
    have hv : low.toNat ≤ v + 128 := hv
    have hv' : v + 128 ≤ high.toNat := hv'
    have hfirst : b.toNat = 0xF0 → 0x90 ≤ low.toNat := fun h => hfirst (UInt8.toNat_inj.1 h)
    have hlast : b.toNat = 0xF4 → high.toNat ≤ 0x8F := fun h => hlast (UInt8.toNat_inj.1 h)
    have hn : assemble (b.toNat - 0xF0) [v, w, x] =
        (((b.toNat - 0xF0) * 64 + v) * 64 + w) * 64 + x := rfl
    rw [hn]
    generalize he : (((b.toNat - 0xF0) * 64 + v) * 64 + w) * 64 + x = n
    have hvalid : n.isValidChar := by
      rw [Nat.isValidChar]
      omega
    have hlead : UInt8.ofNat (n / 262144 % 8 + 240) = b := eq_octet (by omega)
    have hsecond : n / 4096 % 64 = v := by omega
    have hthird : n / 64 % 64 = w := by omega
    have hend : n % 64 = x := by omega
    rw [utf8EncodeChar_ofNat hvalid, if_neg (by omega), if_neg (by omega), if_neg (by omega),
      hlead, hsecond, hthird, hend]
    rfl

/-- An octet of ASCII is a character; one above begins a character, if any. -/
theorem read_begin? {b : UInt8} {read : Char ⊕ Pending} (h : begin? b = some read) :
    read.elim (fun c => String.utf8EncodeChar c = [b]) (fun p => p.Begins [b]) := by
  simp only [begin?, UInt8.lt_iff_toNat_lt, UInt8.reduceToNat] at h
  -- The bounds of the next octet are narrower after one octet than after the others.
  have hlow : ∀ (first least : UInt8), 0x80 ≤ least.toNat →
      0x80 ≤ (if b = first then least else 0x80).toNat ∧
        (b = first → least.toNat ≤ (if b = first then least else 0x80).toNat) := by
    intro first least hleast
    split
    · exact ⟨hleast, fun _ => Nat.le_refl _⟩
    · exact ⟨Nat.le_refl _, fun h => absurd h ‹_›⟩
  have hhigh : ∀ (last most : UInt8), most.toNat ≤ 0xBF →
      (if b = last then most else 0xBF).toNat ≤ 0xBF ∧
        (b = last → (if b = last then most else 0xBF).toNat ≤ most.toNat) := by
    intro last most hmost
    split
    · exact ⟨hmost, fun _ => Nat.le_refl _⟩
    · exact ⟨Nat.le_refl _, fun h => absurd h ‹_›⟩
  split at h
  · cases h
    change String.utf8EncodeChar (Char.ofNat b.toNat) = [b]
    rw [utf8EncodeChar_ofNat (.inl (by omega)), if_pos (by omega), UInt8.ofNat_toNat]
  split at h
  · cases h
  split at h
  · cases h
    exact begins_two (by omega) (by omega)
  split at h
  · cases h
    obtain ⟨hleast, hfirst⟩ := hlow 0xE0 0xA0 (by decide)
    obtain ⟨hmost, hlast⟩ := hhigh 0xED 0x9F (by decide)
    exact begins_three (by omega) (by omega) hleast hfirst hmost hlast
  split at h
  · cases h
    obtain ⟨hleast, hfirst⟩ := hlow 0xF0 0x90 (by decide)
    obtain ⟨hmost, hlast⟩ := hhigh 0xF4 0x8F (by decide)
    exact begins_four (by omega) (by omega) hleast hfirst hmost hlast
  · cases h

/-- An octet that goes on with a character is the last one of it, or goes on with it. -/
theorem Pending.Begins.read_next? {p : Pending} {octets : List UInt8} (hp : p.Begins octets)
    {b : UInt8} {read : Char ⊕ Pending} (h : p.next? b = some read) :
    read.elim (fun c => String.utf8EncodeChar c = octets ++ [b])
      (fun q => q.Begins (octets ++ [b])) := by
  simp only [next?, UInt8.le_iff_toNat_le] at h
  split at h
  · case isTrue hb =>
      have hlow := hp.low
      have hhigh := hp.high
      obtain ⟨v, hv⟩ : ∃ v, b.toNat = v + 128 := ⟨b.toNat - 128, by omega⟩
      have hbits : b.toNat - 0x80 = v := by rw [hv]; exact Nat.add_sub_cancel v 128
      have hoctet : innerOctets [v] = [b] := congrArg (fun b => [b]) (eq_octet hv)
      rw [hv] at hb
      rw [hbits] at h
      split at h
      · case h_1 hafter =>
          cases h
          change String.utf8EncodeChar _ = _
          rw [← hoctet]
          exact hp.encode v [] hafter.symm hb.1 hb.2 nofun
      · case h_2 after hafter =>
          cases h
          refine ⟨Nat.le_refl _, Nat.le_refl _, fun w ws hws hw hw' hrest => ?_⟩
          have hw' : w + 128 ≤ 0xBF := hw'
          have hlength : (w :: ws).length = p.after :=
            (congrArg Nat.succ hws).trans hafter.symm
          have hall : ∀ x ∈ w :: ws, x < 64 := by
            intro x hx
            rcases List.mem_cons.1 hx with rfl | hx
            · omega
            · exact hrest x hx
          rw [List.append_assoc, ← hoctet]
          exact hp.encode v (w :: ws) hlength hb.1 hb.2 hall
  · cases h

/-! ## Exact reading -/

/-- Octets that have been read of a character, if one has begun. -/
def Begun (pending : Option Pending) (octets : List UInt8) : Prop :=
  match pending with
  | none => octets = []
  | some p => p.Begins octets

/-- Octets are read as the characters that they are written with. -/
theorem flatMap_of_decodeFrom {pos : Nat} {pending : Option Pending} {done cs : List Char}
    {octets rest : List UInt8} (hbegun : Begun pending octets)
    (h : decodeFrom pos pending done rest = .ok cs) :
    ∃ ds, cs = done.reverse ++ ds ∧ octets ++ rest = ds.flatMap String.utf8EncodeChar := by
  induction rest generalizing pos pending done octets with
  | nil =>
    cases pending with
    | none =>
      cases h
      exact ⟨[], (List.append_nil _).symm, by rw [hbegun]; rfl⟩
    | some p => cases h
  | cons b rest ih =>
    -- The octet completes a character, or one goes on.
    have hread : ∀ (read : Char ⊕ Pending),
        read.elim (fun c => String.utf8EncodeChar c = octets ++ [b])
          (fun p => p.Begins (octets ++ [b])) →
        read.elim (fun c => decodeFrom (pos + 1) none (c :: done) rest = .ok cs)
          (fun p => decodeFrom (pos + 1) (some p) done rest = .ok cs) →
        ∃ ds, cs = done.reverse ++ ds ∧ octets ++ b :: rest = ds.flatMap String.utf8EncodeChar := by
      rintro (c | p) hoctets hrest
      · obtain ⟨ds, rfl, hds⟩ := @ih _ none _ [] rfl hrest
        refine ⟨c :: ds, by rw [List.reverse_cons, List.append_assoc]; rfl, ?_⟩
        rw [List.flatMap_cons, ← hds, hoctets, List.append_assoc]
        rfl
      · obtain ⟨ds, hcs, hds⟩ := @ih _ (some p) _ _ hoctets hrest
        exact ⟨ds, hcs, by rw [← hds, List.append_assoc]; rfl⟩
    cases pending with
    | none =>
      obtain rfl : octets = [] := hbegun
      rw [decodeFrom] at h
      cases hb : begin? b with
      | none => rw [hb] at h; cases h
      | some read =>
        rw [hb] at h
        refine hread read (read_begin? hb) ?_
        cases read with
        | inl c => exact h
        | inr p => exact h
    | some p =>
      rw [decodeFrom] at h
      cases hb : p.next? b with
      | none => rw [hb] at h; cases h
      | some read =>
        rw [hb] at h
        refine hread read (Pending.Begins.read_next? hbegun hb) ?_
        cases read with
        | inl c => exact h
        | inr p => exact h

/-- Octets are read as some characters exactly if these are written with them. -/
theorem decode_eq_ok_iff {octets : List UInt8} {cs : List Char} :
    decode octets = .ok cs ↔ octets = cs.flatMap String.utf8EncodeChar := by
  constructor
  · intro h
    obtain ⟨ds, rfl, hds⟩ := @flatMap_of_decodeFrom _ none _ _ [] _ rfl h
    exact hds
  · rintro rfl
    exact decode_flatMap cs

/-- Octets that can be read. -/
def IsText (bytes : ByteArray) : Prop := ∃ cs, decode bytes.data.toList = .ok cs

/-- What can be read is UTF-8. -/
theorem isText_iff {bytes : ByteArray} : IsText bytes ↔ bytes.IsValidUTF8 := by
  simp only [IsText, decode_eq_ok_iff]
  constructor
  · rintro ⟨cs, hcs⟩
    refine ⟨cs, ByteArray.ext (Array.toList_inj.1 ?_)⟩
    rw [List.utf8Encode, List.toList_data_toByteArray, hcs]
  · rintro ⟨cs, rfl⟩
    exact ⟨cs, by rw [List.utf8Encode, List.toList_data_toByteArray]⟩

/-! ## Line feeds -/

/-- The octet of a line feed is in no other character. -/
theorem eq_lineFeed_of_mem {c : Char} (h : 0x0A ∈ String.utf8EncodeChar c) : c = '\n' := by
  have hfeed : ∀ n < 256, 0x0A = UInt8.ofNat n → n = 10 := fun n hn he =>
    ((@octet_eq_iff n 10 (by omega) hn).1 he).symm
  simp only [String.utf8EncodeChar] at h
  split at h
  · have hc : c.toNat = 10 := hfeed c.val.toNat (by omega) (List.mem_singleton.1 h)
    rw [← Char.ofNat_toNat c, hc]
  -- The other octets are greater.
  split at h
  · simp only [List.mem_cons, List.not_mem_nil, or_false] at h
    rcases h with h | h <;> have := hfeed _ (by omega) h <;> omega
  split at h
  · simp only [List.mem_cons, List.not_mem_nil, or_false] at h
    rcases h with h | h | h <;> have := hfeed _ (by omega) h <;> omega
  · simp only [List.mem_cons, List.not_mem_nil, or_false] at h
    rcases h with h | h | h | h <;> have := hfeed _ (by omega) h <;> omega

/-- What is read on both sides of a line feed is read together. -/
theorem decode_lineFeed_iff {before after : List UInt8} {cs : List Char} :
    decode (before ++ 0x0A :: after) = .ok cs ↔ ∃ xs ys, decode before = .ok xs ∧
      decode after = .ok ys ∧ cs = xs ++ '\n' :: ys := by
  have hfeed : String.utf8EncodeChar '\n' = [0x0A] := rfl
  simp only [decode_eq_ok_iff]
  constructor
  · intro h
    induction cs generalizing before with
    | nil => exact absurd h (by simp)
    | cons c cs ih =>
      rw [List.flatMap_cons] at h
      -- The line feed is the character, or it comes after all octets of the character.
      have hcases : (c = '\n' ∧ before = [] ∧ after = cs.flatMap String.utf8EncodeChar) ∨
          ∃ inner, before = String.utf8EncodeChar c ++ inner ∧
            inner ++ 0x0A :: after = cs.flatMap String.utf8EncodeChar := by
        rcases List.append_eq_append_iff.1 h with ⟨mid, hc, hmid⟩ | ⟨inner, hbefore, hinner⟩
        · cases mid with
          | nil => exact .inr ⟨[], by rw [hc]; simp, hmid⟩
          | cons b mid =>
            obtain ⟨rfl, hafter⟩ := List.cons.inj hmid
            obtain rfl : c = '\n' := eq_lineFeed_of_mem (hc ▸ by simp)
            rw [hfeed] at hc
            cases before with
            | nil =>
              obtain rfl : [] = mid := (List.cons.inj hc).2
              exact .inl ⟨rfl, rfl, hafter⟩
            | cons b' before => exact absurd (List.cons.inj hc).2 (by simp)
        · exact .inr ⟨inner, hbefore, hinner.symm⟩
      rcases hcases with ⟨rfl, rfl, hafter⟩ | ⟨inner, rfl, hinner⟩
      · exact ⟨[], cs, rfl, hafter, rfl⟩
      · obtain ⟨xs, ys, hxs, hys, rfl⟩ := ih hinner
        exact ⟨c :: xs, ys, by rw [hxs, List.flatMap_cons], hys, rfl⟩
  · rintro ⟨xs, ys, rfl, rfl, rfl⟩
    rw [List.flatMap_append, List.flatMap_cons, hfeed]
    rfl

/-- Octets with a line feed between them. -/
def joinLines (a b : ByteArray) : ByteArray := a ++ ⟨#[0x0A]⟩ ++ b

theorem toList_joinLines (a b : ByteArray) :
    (joinLines a b).data.toList = a.data.toList ++ 0x0A :: b.data.toList := by
  rw [joinLines, ByteArray.toList_data_append, ByteArray.toList_data_append, List.append_assoc]
  rfl

/-- Octets with a line feed between them are UTF-8 exactly if both sides are. -/
theorem isText_joinLines {a b : ByteArray} : IsText (joinLines a b) ↔ IsText a ∧ IsText b := by
  simp only [IsText, toList_joinLines, decode_lineFeed_iff]
  constructor
  · rintro ⟨-, xs, ys, hxs, hys, rfl⟩
    exact ⟨⟨xs, hxs⟩, ⟨ys, hys⟩⟩
  · rintro ⟨⟨xs, hxs⟩, ⟨ys, hys⟩⟩
    exact ⟨_, xs, ys, hxs, hys, rfl⟩

end KeyAudit.Text.Utf8
