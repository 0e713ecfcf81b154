import Offside.Text.Utf8

/-! Every text is read back from its octets, and from no others. -/
namespace Offside.Utf8

variable {lead second n : Nat} {octet : UInt8} {band : Band} {bands : List Band}
  {tails rest : List UInt8}

inductive Fits : List Band → List UInt8 → Prop
  | nil : Fits [] []
  | cons {band : Band} {octet : UInt8} {bands : List Band} {tails : List UInt8}
      (hl : band.1 ≤ octet.toNat) (hh : octet.toNat ≤ band.2) (h : Fits bands tails) :
      Fits (band :: bands) (octet :: tails)

theorem Fits.length_eq (h : Fits bands tails) : tails.length = bands.length := by
  induction h with
  | nil => rfl
  | cons _ _ _ ih => exact congrArg (· + 1) ih

theorem Fits.fitting_append (h : Fits bands tails) (rest : List UInt8) :
    fitting bands (tails ++ rest) = tails.length := by
  induction h with
  | nil => rfl
  | cons hl hh _ ih =>
    rw [List.cons_append, fitting, if_pos ⟨hl, hh⟩, ih, List.length_cons]

/-- A code point is read from a lead octet and octets that fit behind it. -/
theorem decodeAt_sequence (hb : bands? octet.toNat = some bands) (hf : Fits bands tails)
    (offset : Nat) (rest : List UInt8) :
    decodeAt offset (octet :: (tails ++ rest)) =
      (decodeAt (offset + tails.length + 1) rest).map
        (.ofNat (number octet.toNat tails) :: ·) := by
  rw [decodeAt, hb]
  dsimp only
  rw [hf.fitting_append, if_neg (by rw [hf.length_eq]; omega), List.drop_left, List.take_left]
  cases decodeAt (offset + tails.length + 1) rest <;> rfl

section Bands

theorem bands?_one (h : lead < 0x80) : bands? lead = some [] := by
  unfold bands?
  rw [if_pos h]

theorem bands?_two (hl : 0xC2 ≤ lead) (hh : lead < 0xE0) : bands? lead = some [anyTail] := by
  unfold bands?
  rw [if_neg (by omega), if_neg (by omega), if_pos hh]

/-- Of three octets the second must not spell a longer form or a surrogate. -/
theorem bands?_three (lead second : Nat) (hl : 0xE0 ≤ lead) (hh : lead < 0xF0) (hs : 0x80 ≤ second)
    (hs' : second ≤ 0xBF) (hlong : lead = 0xE0 → 0xA0 ≤ second)
    (hsurrogate : lead = 0xED → second ≤ 0x9F) :
    ∃ band, bands? lead = some [band, anyTail] ∧ band.1 ≤ second ∧ second ≤ band.2 := by
  unfold bands?
  rw [if_neg (by omega), if_neg (by omega), if_neg (by omega)]
  by_cases h0 : lead = 0xE0
  · exact ⟨_, if_pos h0, hlong h0, hs'⟩
  by_cases hD : lead = 0xED
  · rw [if_neg h0]
    exact ⟨_, if_pos hD, hs, hsurrogate hD⟩
  · rw [if_neg h0, if_neg hD]
    exact ⟨_, if_pos hh, hs, hs'⟩

/-- Of four octets the second must not spell a longer form or too great a number. -/
theorem bands?_four (lead second : Nat) (hl : 0xF0 ≤ lead) (hh : lead ≤ 0xF4) (hs : 0x80 ≤ second)
    (hs' : second ≤ 0xBF) (hlong : lead = 0xF0 → 0x90 ≤ second)
    (hgreat : lead = 0xF4 → second ≤ 0x8F) :
    ∃ band, bands? lead = some [band, anyTail, anyTail] ∧ band.1 ≤ second ∧ second ≤ band.2 := by
  unfold bands?
  rw [if_neg (by omega), if_neg (by omega), if_neg (by omega), if_neg (by omega),
    if_neg (by omega), if_neg (by omega)]
  by_cases h0 : lead = 0xF0
  · exact ⟨_, if_pos h0, hlong h0, hs'⟩
  by_cases h4 : lead = 0xF4
  · rw [if_neg h0, if_neg (by omega)]
    exact ⟨_, if_pos h4, hs, hgreat h4⟩
  · rw [if_neg h0]
    exact ⟨_, if_pos (by omega), hs, hs'⟩

end Bands

section Octets

theorem toNat_ofNat (h : n < 0x100) : (UInt8.ofNat n).toNat = n := UInt8.toNat_ofNat_of_lt h

def tailOctet (n : Nat) : UInt8 := .ofNat (0x80 + n % 0x40)

theorem toNat_tailOctet (n : Nat) : (tailOctet n).toNat = 0x80 + n % 0x40 :=
  toNat_ofNat (by omega)

theorem fits_tailOctet (n : Nat) (h : Fits bands tails) :
    Fits (anyTail :: bands) (tailOctet n :: tails) := by
  refine .cons ?_ ?_ h
  · rw [toNat_tailOctet]
    exact Nat.le_add_right _ _
  · rw [toNat_tailOctet]
    have hm := Nat.mod_lt n (by decide : 0 < 0x40)
    change _ ≤ 0xBF
    omega

/-- The octets are a lead octet and octets that fit behind it, and spell the number. -/
def Encodes (n : Nat) (octet : UInt8) (tails : List UInt8) : Prop :=
  (∃ bands, bands? octet.toNat = some bands ∧ Fits bands tails) ∧ number octet.toNat tails = n

theorem encodes_one (h : n < 0x80) : Encodes n (.ofNat n) [] := by
  unfold Encodes
  rw [toNat_ofNat (by omega)]
  exact ⟨⟨[], bands?_one h, .nil⟩, rfl⟩

theorem encodes_two (hl : 0x80 ≤ n) (hh : n < 0x800) :
    Encodes n (.ofNat (0xC0 + n / 0x40)) [tailOctet n] := by
  unfold Encodes
  rw [toNat_ofNat (by omega)]
  refine ⟨⟨_, bands?_two (by omega) (by omega), fits_tailOctet n .nil⟩, ?_⟩
  change (0xC0 + n / 0x40 - 0xC0) * 0x40 + ((tailOctet n).toNat - 0x80) = n
  rw [toNat_tailOctet]
  omega

theorem encodes_three (hl : 0x800 ≤ n) (hh : n < 0x10000)
    (hs : n < 0xD800 ∨ 0xDFFF < n) :
    Encodes n (.ofNat (0xE0 + n / 0x1000)) [tailOctet (n / 0x40), tailOctet n] := by
  have hsecond := toNat_tailOctet (n / 0x40)
  obtain ⟨band, hb, hlow, hhigh⟩ := bands?_three (0xE0 + n / 0x1000)
    (tailOctet (n / 0x40)).toNat (by omega) (by omega) (by omega) (by omega)
    (by omega) (by omega)
  unfold Encodes
  rw [toNat_ofNat (by omega)]
  refine ⟨⟨_, hb, .cons hlow hhigh (fits_tailOctet n .nil)⟩, ?_⟩
  change ((0xE0 + n / 0x1000 - 0xE0) * 0x40 + ((tailOctet (n / 0x40)).toNat - 0x80)) * 0x40 +
    ((tailOctet n).toNat - 0x80) = n
  rw [toNat_tailOctet, toNat_tailOctet]
  omega

theorem encodes_four (hl : 0x10000 ≤ n) (hh : n < 0x110000) :
    Encodes n (.ofNat (0xF0 + n / 0x40000))
      [tailOctet (n / 0x1000), tailOctet (n / 0x40), tailOctet n] := by
  have hsecond := toNat_tailOctet (n / 0x1000)
  obtain ⟨band, hb, hlow, hhigh⟩ := bands?_four (0xF0 + n / 0x40000)
    (tailOctet (n / 0x1000)).toNat (by omega) (by omega) (by omega) (by omega)
    (by omega) (by omega)
  unfold Encodes
  rw [toNat_ofNat (by omega)]
  refine ⟨⟨_, hb, .cons hlow hhigh (fits_tailOctet (n / 0x40) (fits_tailOctet n .nil))⟩, ?_⟩
  change (((0xF0 + n / 0x40000 - 0xF0) * 0x40 + ((tailOctet (n / 0x1000)).toNat - 0x80)) * 0x40 +
    ((tailOctet (n / 0x40)).toNat - 0x80)) * 0x40 + ((tailOctet n).toNat - 0x80) = n
  rw [toNat_tailOctet, toNat_tailOctet, toNat_tailOctet]
  omega

theorem exists_encodes (c : Char) :
    ∃ octet tails, encodeChar c = octet :: tails ∧ Encodes c.toNat octet tails := by
  have hvalid : c.toNat < 0xD800 ∨ 0xDFFF < c.toNat ∧ c.toNat < 0x110000 := c.valid
  unfold encodeChar
  generalize c.toNat = n at hvalid
  dsimp only
  by_cases h1 : n < 0x80
  · rw [if_pos h1]
    exact ⟨_, _, rfl, encodes_one h1⟩
  by_cases h2 : n < 0x800
  · rw [if_neg h1, if_pos h2]
    exact ⟨_, _, rfl, encodes_two (by omega) h2⟩
  by_cases h3 : n < 0x10000
  · rw [if_neg h1, if_neg h2, if_pos h3]
    exact ⟨_, _, rfl, encodes_three (by omega) h3 (by omega)⟩
  · rw [if_neg h1, if_neg h2, if_neg h3]
    exact ⟨_, _, rfl, encodes_four (by omega) (by omega)⟩

end Octets

theorem decodeAt_encode (offset : Nat) (t : Text) : decodeAt offset (encode t) = .ok t := by
  induction t generalizing offset with
  | nil => rw [encode, List.flatMap_nil, decodeAt]
  | cons c t ih =>
    obtain ⟨octet, tails, hc, ⟨bands, hb, hf⟩, hn⟩ := exists_encodes c
    have he : encode (c :: t) = octet :: (tails ++ encode t) := by
      unfold encode
      rw [List.flatMap_cons, hc, List.cons_append]
    rw [he, decodeAt_sequence hb hf, ih, hn, Char.ofNat_toNat]
    rfl

theorem decode_encode (t : Text) : decode (encode t) = .ok t := decodeAt_encode 0 t

section Soundness

variable {low high : Nat} {octets : List UInt8} {t : Text}

theorem toNat_char (h : n < 0xD800 ∨ 0xDFFF < n ∧ n < 0x110000) : (Char.ofNat n).toNat = n := by
  unfold Char.ofNat
  rw [dif_pos h]
  rfl

theorem ofNat_eq (octet : UInt8) (h : n = octet.toNat) : UInt8.ofNat n = octet := by
  rw [h, UInt8.ofNat_toNat]

theorem tailOctet_eq (octet : UInt8) (hl : 0x80 ≤ octet.toNat) (hh : octet.toNat ≤ 0xBF)
    (h : n % 0x40 = octet.toNat - 0x80) : tailOctet n = octet :=
  ofNat_eq octet (by omega)

theorem fits_anyTail (h : Fits (anyTail :: bands) tails) :
    ∃ octet more, tails = octet :: more ∧ 0x80 ≤ octet.toNat ∧ octet.toNat ≤ 0xBF ∧
      Fits bands more := by
  cases h with
  | cons hl hh h => exact ⟨_, _, rfl, hl, hh, h⟩

theorem encodeChar_one (h : octet.toNat < 0x80) :
    encodeChar (.ofNat (number octet.toNat [])) = [octet] := by
  change encodeChar (.ofNat octet.toNat) = _
  unfold encodeChar
  rw [toNat_char (by omega)]
  dsimp only
  rw [if_pos h, UInt8.ofNat_toNat]

theorem encodeChar_two (ha : 0xC2 ≤ octet.toNat) (ha' : octet.toNat < 0xE0)
    (hf : Fits [anyTail] tails) :
    encodeChar (.ofNat (number octet.toNat tails)) = octet :: tails := by
  obtain ⟨b, _, rfl, hb, hb', hf⟩ := fits_anyTail hf
  cases hf
  change encodeChar (.ofNat ((octet.toNat - 0xC0) * 0x40 + (b.toNat - 0x80))) = _
  generalize hn : (octet.toNat - 0xC0) * 0x40 + (b.toNat - 0x80) = n
  unfold encodeChar
  rw [toNat_char (by omega)]
  dsimp only
  rw [if_neg (by omega), if_pos (by omega), ofNat_eq octet (by omega), ← tailOctet,
    tailOctet_eq b hb hb' (by omega)]

theorem encodeChar_three (ha : 0xE0 ≤ octet.toNat) (ha' : octet.toNat < 0xF0)
    (hl : 0x80 ≤ low) (hh : high ≤ 0xBF) (hlong : octet.toNat = 0xE0 → 0xA0 ≤ low)
    (hsurrogate : octet.toNat = 0xED → high ≤ 0x9F) (hf : Fits [(low, high), anyTail] tails) :
    encodeChar (.ofNat (number octet.toNat tails)) = octet :: tails := by
  cases hf with
  | @cons _ b _ _ hb hb' hf =>
    obtain ⟨c, _, rfl, hc, hc', hf⟩ := fits_anyTail hf
    cases hf
    dsimp only at hb hb'
    change encodeChar (.ofNat (((octet.toNat - 0xE0) * 0x40 + (b.toNat - 0x80)) * 0x40 +
      (c.toNat - 0x80))) = _
    generalize hn : ((octet.toNat - 0xE0) * 0x40 + (b.toNat - 0x80)) * 0x40 +
      (c.toNat - 0x80) = n
    unfold encodeChar
    rw [toNat_char (by omega)]
    dsimp only
    rw [if_neg (by omega), if_neg (by omega), if_pos (by omega),
      ofNat_eq octet (by omega), ← tailOctet, ← tailOctet,
      tailOctet_eq b (by omega) (by omega) (by omega), tailOctet_eq c hc hc' (by omega)]

theorem encodeChar_four (ha : 0xF0 ≤ octet.toNat) (ha' : octet.toNat ≤ 0xF4)
    (hl : 0x80 ≤ low) (hh : high ≤ 0xBF) (hlong : octet.toNat = 0xF0 → 0x90 ≤ low)
    (hgreat : octet.toNat = 0xF4 → high ≤ 0x8F)
    (hf : Fits [(low, high), anyTail, anyTail] tails) :
    encodeChar (.ofNat (number octet.toNat tails)) = octet :: tails := by
  cases hf with
  | @cons _ b _ _ hb hb' hf =>
    obtain ⟨c, _, rfl, hc, hc', hf⟩ := fits_anyTail hf
    obtain ⟨d, _, rfl, hd, hd', hf⟩ := fits_anyTail hf
    cases hf
    dsimp only at hb hb'
    change encodeChar (.ofNat ((((octet.toNat - 0xF0) * 0x40 + (b.toNat - 0x80)) * 0x40 +
      (c.toNat - 0x80)) * 0x40 + (d.toNat - 0x80))) = _
    generalize hn : (((octet.toNat - 0xF0) * 0x40 + (b.toNat - 0x80)) * 0x40 +
      (c.toNat - 0x80)) * 0x40 + (d.toNat - 0x80) = n
    unfold encodeChar
    rw [toNat_char (by omega)]
    dsimp only
    rw [if_neg (by omega), if_neg (by omega), if_neg (by omega),
      ofNat_eq octet (by omega), ← tailOctet, ← tailOctet, ← tailOctet,
      tailOctet_eq b (by omega) (by omega) (by omega), tailOctet_eq c hc hc' (by omega),
      tailOctet_eq d hd hd' (by omega)]

theorem encodeChar_number (hb : bands? octet.toNat = some bands) (hf : Fits bands tails) :
    encodeChar (.ofNat (number octet.toNat tails)) = octet :: tails := by
  unfold bands? at hb
  split at hb
  · cases hb
    cases hf
    exact encodeChar_one ‹_›
  split at hb
  · cases hb
  split at hb
  · cases hb
    exact encodeChar_two (by omega) ‹_› hf
  iterate 3
    split at hb
    · cases hb
      exact encodeChar_three (by omega) (by omega) (by decide) (by decide) (by omega) (by omega) hf
  iterate 3
    split at hb
    · cases hb
      exact encodeChar_four (by omega) (by omega) (by decide) (by decide) (by omega) (by omega) hf
  cases hb

theorem fits_of_fitting (h : bands.length ≤ fitting bands rest) :
    ∃ tails behind, rest = tails ++ behind ∧ Fits bands tails := by
  induction bands generalizing rest with
  | nil => exact ⟨[], rest, rfl, .nil⟩
  | cons band bands ih =>
    cases rest with
    | nil => cases h
    | cons octet rest =>
      rw [fitting] at h
      split at h
      · rename_i hband
        obtain ⟨tails, behind, rfl, hf⟩ := ih (Nat.le_of_succ_le_succ h)
        exact ⟨octet :: tails, behind, rfl, .cons hband.1 hband.2 hf⟩
      · cases h

theorem encode_of_decodeAt {offset : Nat} (h : decodeAt offset octets = .ok t) :
    octets = encode t := by
  -- A character takes up to four octets, so the induction is on their number.
  induction hn : octets.length using Nat.strongRecOn generalizing octets offset t with
  | _ n ih =>
    cases octets with
    | nil =>
      rw [decodeAt] at h
      cases h
      rfl
    | cons octet rest =>
      cases hb : bands? octet.toNat with
      | none =>
        rw [decodeAt, hb] at h
        cases h
      | some bands =>
        by_cases hfit : fitting bands rest < bands.length
        · rw [decodeAt, hb] at h
          dsimp only at h
          rw [if_pos hfit] at h
          cases h
        · obtain ⟨tails, behind, rfl, hf⟩ := fits_of_fitting (Nat.not_lt.1 hfit)
          rw [decodeAt_sequence hb hf] at h
          cases hmore : decodeAt (offset + tails.length + 1) behind with
          | error fault =>
            rw [hmore] at h
            cases h
          | ok more =>
            rw [hmore] at h
            cases h
            have hlt : behind.length < n := by
              rw [← hn, List.length_cons, List.length_append]
              omega
            have hc := encodeChar_number hb hf
            rw [ih _ hlt hmore rfl]
            unfold encode
            rw [List.flatMap_cons, hc, List.cons_append]

/-- Octets are those of a text just if they are read as it. -/
theorem decode_eq_ok_iff : decode octets = .ok t ↔ octets = encode t := by
  constructor
  · exact encode_of_decodeAt
  · rintro rfl
    exact decode_encode t

end Soundness

end Offside.Utf8
