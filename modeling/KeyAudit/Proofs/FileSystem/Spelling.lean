import KeyAudit.FileSystem.Name
import KeyAudit.Proofs.Text.Octets

/-!
# Spellings of names

A name is known by its octets, so the spelling in which it is listed has the octets of any other
spelling of it (`octets_canonical`): every octet is spelled by itself, or with those that make a
character with it. Hence this spelling is of the same length, is listed as it is, and is `.` or
another plain text only if the name is spelled just so (`eq_of_canonical_eq`).
-/

namespace KeyAudit.FileName

open Text Text.Utf8

variable {b : UInt8} {s t : Text}

theorem octets_append (s t : Text) : octets (s ++ t) = octets s ++ octets t :=
  List.flatMap_append

/-! ## Octets that are spelled by themselves -/

theorem octets_single (h : 0x80 ≤ b.toNat) : octets [single b] = [b] := by
  have hb := b.toNat_lt
  have hoctet : octet? ⟨0xDC00 + b.toNat, by omega⟩ = some b := by
    rw [octet?, if_pos (by dsimp only; omega)]
    dsimp only
    rw [Nat.add_sub_cancel_left, Nat.toUInt8_eq, UInt8.ofNat_toNat]
  rw [octets, List.flatMap_singleton, single]
  simp only [octetsOf, hoctet]
  rfl

theorem octets_map_single {bs : List UInt8} (h : ∀ b ∈ bs, 0x80 ≤ b.toNat) :
    octets (bs.map single) = bs := by
  induction bs with
  | nil => rfl
  | cons b bs ih =>
    obtain ⟨hb, hbs⟩ := List.forall_mem_cons.1 h
    rw [List.map_cons, ← List.singleton_append, octets_append, octets_single hb, ih hbs]
    rfl

theorem le_of_octet? {half : Surrogate} (h : octet? half = some b) : 0x80 ≤ b.toNat := by
  unfold octet? at h
  split at h
  · case isTrue hunit =>
      rw [← Option.some.inj h, Nat.toUInt8_eq, UInt8.toNat_ofNat']
      omega
  · cases h

/-! ## Octets one by one -/

/-- Octets have begun a character, and none of them is one by itself. -/
structure Begun.IsSound (begun : Begun) : Prop where
  begins : begun.pending.Begins begun.read.reverse
  high : ∀ b ∈ begun.read, 0x80 ≤ b.toNat

/-- The octets that have been read of a character, if one has begun. -/
def begunOctets (begun : Option Begun) : List UInt8 :=
  begun.elim [] fun begun => begun.read.reverse

/-- What is settled after some octets, and what has begun, have just these octets. -/
structure Accounts (octetsBefore : List UInt8) (result : Text × Option Begun) : Prop where
  octets : octets result.1 ++ begunOctets result.2 = octetsBefore
  sound : ∀ begun, result.2 = some begun → begun.IsSound

/-- An octet is a character if it is one of ASCII. -/
theorem le_of_begin? (h : ∀ c, begin? b ≠ some (.inl c)) : 0x80 ≤ b.toNat := by
  refine Nat.le_of_not_lt fun hb => h (Char.ofNat b.toNat) (if_pos ?_)
  rw [UInt8.lt_iff_toNat_lt]
  exact hb

theorem le_of_next? {pending : Pending} {next : Char ⊕ Pending}
    (h : pending.next? b = some next) : pending.low.toNat ≤ b.toNat := by
  rw [Pending.next?] at h
  split at h
  · case isTrue hb => exact UInt8.le_iff_toNat_le.1 hb.1
  · cases h

theorem accounts_start (b : UInt8) : Accounts [b] (start b) := by
  rw [start]
  cases hb : begin? b with
  | none =>
    have hhigh : 0x80 ≤ b.toNat := le_of_begin? fun c h => by cases hb.symm.trans h
    exact ⟨(List.append_nil _).trans (octets_single hhigh), nofun⟩
  | some read =>
    have hread := read_begin? hb
    cases read with
    | inl c => exact ⟨by simpa [octets, octetsOf, begunOctets] using hread, nofun⟩
    | inr pending =>
      have hhigh : 0x80 ≤ b.toNat := le_of_begin? fun c h => by cases hb.symm.trans h
      refine ⟨rfl, fun begun hbegun => ?_⟩
      cases hbegun
      exact ⟨hread, fun c hc => List.mem_singleton.1 hc ▸ hhigh⟩

theorem accounts_step {begun : Option Begun} (h : ∀ b, begun = some b → b.IsSound) (b : UInt8) :
    Accounts (begunOctets begun ++ [b]) (step begun b) := by
  cases begun with
  | none => exact accounts_start b
  | some begun =>
    obtain ⟨hbegins, hhigh⟩ := h begun rfl
    obtain ⟨pending, read⟩ := begun
    rw [step]
    cases hb : pending.next? b with
    | none =>
      -- The octets so far are no character, so they are spelled by themselves.
      obtain ⟨hoctets, hsound⟩ := accounts_start b
      refine ⟨?_, hsound⟩
      have hread : octets (read.reverse.map single) = read.reverse :=
        octets_map_single fun c hc => hhigh c (List.mem_reverse.1 hc)
      rw [octets_append, List.append_assoc, hread, hoctets]
      rfl
    | some next =>
      have hnext := hbegins.read_next? hb
      cases next with
      | inl c => exact ⟨by simpa [octets, octetsOf, begunOctets] using hnext, nofun⟩
      | inr pending' =>
        refine ⟨List.reverse_cons, fun begun hbegun => ?_⟩
        cases hbegun
        refine ⟨List.reverse_cons ▸ hnext, List.forall_mem_cons.2 ⟨?_, hhigh⟩⟩
        exact Nat.le_trans hbegins.low (le_of_next? hb)

/-! ## Spellings -/

theorem octets_ofOctetsAfter {begun : Option Begun} (h : ∀ b, begun = some b → b.IsSound)
    (bs : List UInt8) : octets (ofOctetsAfter begun bs) = begunOctets begun ++ bs := by
  induction bs generalizing begun with
  | nil =>
    rw [List.append_nil]
    cases begun with
    | none => rfl
    | some begun => exact octets_map_single fun c hc => (h _ rfl).high c (List.mem_reverse.1 hc)
  | cons b bs ih =>
    obtain ⟨hoctets, hsound⟩ := accounts_step h b
    rw [ofOctetsAfter, octets_append, ih hsound, ← List.append_assoc, hoctets, List.append_assoc]
    rfl

/-- A name is listed with its octets. -/
theorem octets_canonical (s : Text) : octets (canonical s) = octets s := by
  rw [canonical]
  split
  · exact octets_ofOctetsAfter (fun b hb => by cases hb) _
  · rfl

theorem size_canonical (s : Text) : size (canonical s) = size s :=
  congrArg List.length (octets_canonical s)

/-- A name is listed as it is listed. -/
theorem canonical_canonical (s : Text) : canonical (canonical s) = canonical s := by
  have hspelled : holdsHalf (canonical s) = true → canonical s = ofOctets (octets s) := fun h => by
    rw [canonical] at h ⊢
    split
    · rfl
    · case isFalse hs => rw [if_neg hs] at h; exact absurd h hs
  cases hs : holdsHalf (canonical s) with
  | false => rw [canonical, hs]; rfl
  | true => rw [canonical, hs, octets_canonical, if_pos rfl, hspelled hs]

/-- A name that is listed as a plain text is spelled so. -/
theorem eq_of_canonical_eq (hs : unencodable? s = none) (ht : ∀ b ∈ octets t, b.toNat < 0x80)
    (h : canonical s = t) : s = t := by
  cases hhalf : holdsHalf s with
  | false => rwa [canonical, hhalf] at h
  | true =>
    obtain ⟨c, hc, hhalf⟩ := List.any_eq_true.1 hhalf
    cases c with
    | char c => cases hhalf
    | half half =>
      -- The half spells an octet that plain texts do not have.
      have hspells := unencodableFrom?_eq_none_iff.1 hs half hc
      cases hb : octet? half with
      | none => cases hb ▸ hspells
      | some b =>
        have hmem : b ∈ octets s := List.mem_flatMap.2 ⟨_, hc, by simp [octetsOf, hb]⟩
        rw [← octets_canonical, h] at hmem
        exact absurd (ht b hmem) (Nat.not_lt.2 (le_of_octet? hb))

end KeyAudit.FileName
