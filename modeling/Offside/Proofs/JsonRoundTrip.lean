import Mathlib.Algebra.Group.Nat.Defs
import Mathlib.Data.List.Basic
import Mathlib.Data.List.TakeWhile
import Offside.Json.Read
import Offside.Proofs.Lists

/-! Every JSON document is ASCII and is read back as the value it was written for. -/
namespace Offside

namespace Text

theorem toNat_lt (c : Char) : c.toNat < 0x110000 := by
  have h := c.valid
  change c.toNat < 0xD800 ∨ 0xDFFF < c.toNat ∧ c.toNat < 0x110000 at h
  omega

theorem isDigit_of_mem_ofNat {n : Nat} {c : Char} (h : c ∈ ofNat n) : c.isDigit = true :=
  Nat.isDigit_of_mem_toDigits (by decide) (by decide) h

theorem ofNat_ne_nil (n : Nat) : ofNat n ≠ [] := Nat.toDigits_ne_nil

theorem head?_ofNat {n : Nat} (h : (ofNat n).head? = some '0') : n = 0 := by
  induction n using Nat.strongRecOn with
  | _ n ih =>
    unfold ofNat at h ih
    rw [Nat.toDigits_eq_if (by decide)] at h
    split at h
    · rename_i hlt
      have hd : ∀ d < 10, d.digitChar = '0' → d = 0 := by decide
      exact hd n hlt (Option.some.inj h)
    · rename_i hge
      have hn : n / 10 = 0 := by
        refine ih (n / 10) (by omega) ?_
        rwa [List.head?_append_of_ne_nil _ Nat.toDigits_ne_nil] at h
      omega

end Text

namespace Json

variable {t rest : Text} {c : Char} {depth n : Nat}

section Digits

theorem hexDigit?_digitChar : ∀ d < 16, hexDigit? d.digitChar = some d := by decide

theorem hexNumber?_from (width n start : Nat) :
    (Text.hexDigits width n).foldlM (fun n c => (hexDigit? c).map (n * 16 + ·)) start =
      some (start * 16 ^ width + n % 16 ^ width) := by
  induction width generalizing n with
  | zero => simp [Text.hexDigits, Nat.mod_one]
  | succ width ih =>
    have hd := hexDigit?_digitChar (n % 16) (Nat.mod_lt n (by decide))
    have hm : n % 16 ^ (width + 1) = n % 16 + 16 * (n / 16 % 16 ^ width) := by
      rw [Nat.pow_succ', Nat.mod_mul]
    rw [Text.hexDigits, List.foldlM_append, ih]
    simp only [Option.bind_eq_bind, Option.bind_some, List.foldlM_cons, List.foldlM_nil, hd,
      Option.map_some, Option.pure_def, Option.some.injEq]
    rw [hm, Nat.pow_succ, ← Nat.mul_assoc]
    omega

theorem hexNumber?_hexDigits {width : Nat} (h : n < 16 ^ width) :
    hexNumber? (Text.hexDigits width n) = some n := by
  unfold hexNumber?
  rw [hexNumber?_from, Nat.mod_eq_of_lt h, Nat.zero_mul, Nat.zero_add]

end Digits

section Texts

def unitsOf (c : Char) : List Nat :=
  if c.toNat < 0x10000 then [c.toNat]
  else [0xD800 + (c.toNat - 0x10000) / 0x400, 0xDC00 + (c.toNat - 0x10000) % 0x400]

theorem readUnits_unit (h : n < 0x10000) (rest : Text) :
    readUnits (unit n ++ rest) =
      (readUnits rest).map fun (ns, behind) => (n :: ns, behind) := by
  have hn : hexNumber? (Text.hexDigits 4 n) = some n := hexNumber?_hexDigits h
  simp only [Text.hexDigits, List.nil_append, List.cons_append] at hn
  simp only [unit, Text.hexDigits, List.nil_append, List.cons_append, readUnits, hn]
  cases readUnits rest <;> rfl

theorem readUnits_plain (h : c ≠ '"') (h' : c ≠ '\\') (hc : 0x20 ≤ c.toNat) (rest : Text) :
    readUnits (c :: rest) =
      (readUnits rest).map fun (ns, behind) => (c.toNat :: ns, behind) := by
  rw [readUnits.eq_def]
  split
  · cases ‹c :: rest = []›
  · simp_all
  · simp_all
  · simp_all
  · rename_i heq
    cases heq
    rw [if_neg (Nat.not_lt.2 hc)]
    cases readUnits rest <;> rfl

theorem readUnits_short {e : Char} (he : e ≠ 'u') (h : unescape? e = some c) (rest : Text) :
    readUnits ('\\' :: e :: rest) =
      (readUnits rest).map fun (ns, behind) => (c.toNat :: ns, behind) := by
  rw [readUnits.eq_def]
  split
  · rename_i heq
    cases heq
  · simp_all
  · simp_all
  · rename_i heq
    cases heq
    rw [h]
    cases readUnits rest <;> rfl
  · rename_i hne heq
    cases heq
    exact absurd rfl (hne e rest rfl)

theorem readUnits_escape (c : Char) (rest : Text) :
    readUnits (escape c ++ rest) =
      (readUnits rest).map fun (ns, behind) => (unitsOf c ++ ns, behind) := by
  have hshort : ∀ {e c : Char}, e ≠ 'u' → unescape? e = some c → c.toNat < 0x10000 →
      readUnits (['\\', e] ++ rest) =
        (readUnits rest).map fun (ns, behind) => (unitsOf c ++ ns, behind) := by
    intro e c he hc hn
    rw [unitsOf, if_pos hn]
    exact readUnits_short he hc rest
  unfold escape
  -- The seven short escapes, then what is written as it is, then one code unit or two.
  iterate 7
    split
    · subst c
      exact hshort (by decide) rfl (by decide)
  split
  · rename_i hq hb _ _ _ _ _ hv
    rw [unitsOf, if_pos (by omega)]
    exact readUnits_plain hq hb hv.1 rest
  split
  · rename_i hn
    rw [unitsOf, if_pos hn]
    exact readUnits_unit hn rest
  · rename_i hn
    have hv := Text.toNat_lt c
    rw [unitsOf, if_neg hn, List.append_assoc, readUnits_unit (by omega),
      readUnits_unit (by omega)]
    cases readUnits rest <;> rfl

/-- No character is a surrogate, so that units are told from code points. -/
theorem joinUnits_unitsOf (c : Char) (ns : List Nat) :
    joinUnits (unitsOf c ++ ns) = (joinUnits ns).map (c :: ·) := by
  have hv : c.toNat < 0xD800 ∨ 0xDFFF < c.toNat ∧ c.toNat < 0x110000 := c.valid
  unfold unitsOf
  split
  · have hhigh : ¬ (0xD800 ≤ c.toNat ∧ c.toNat < 0xDC00) := by omega
    have hlow : ¬ (0xDC00 ≤ c.toNat ∧ c.toNat < 0xE000) := by omega
    have hnone : ¬ (0xD800 ≤ c.toNat ∧ c.toNat < 0xE000) := by omega
    cases ns with
    | nil =>
      change (if 0xD800 ≤ c.toNat ∧ c.toNat < 0xE000 then none else some [.ofNat c.toNat]) =
        some [c]
      rw [if_neg hnone, Char.ofNat_toNat]
    | cons low ns =>
      rw [List.singleton_append, joinUnits, if_neg hhigh, if_neg hlow, Char.ofNat_toNat]
  · rename_i hn
    have hc : 0x10000 + (0xD800 + (c.toNat - 0x10000) / 0x400 - 0xD800) * 0x400 +
        (0xDC00 + (c.toNat - 0x10000) % 0x400 - 0xDC00) = c.toNat := by omega
    rw [List.cons_append, List.singleton_append, joinUnits, if_pos (by omega), if_pos (by omega),
      hc, Char.ofNat_toNat]

theorem readUnits_text (t rest : Text) :
    readUnits (t.flatMap escape ++ '"' :: rest) = some (t.flatMap unitsOf, rest) := by
  induction t with
  | nil => rfl
  | cons c t ih => rw [List.flatMap_cons, List.append_assoc, readUnits_escape, ih]; rfl

theorem joinUnits_text (t : Text) : joinUnits (t.flatMap unitsOf) = some t := by
  induction t with
  | nil => rfl
  | cons c t ih => rw [List.flatMap_cons, joinUnits_unitsOf, ih]; rfl

theorem readText_text (t rest : Text) :
    readText (t.flatMap escape ++ '"' :: rest) = some (t, rest) := by
  unfold readText
  rw [readUnits_text]
  change (do return (← joinUnits (t.flatMap unitsOf), rest)) = _
  rw [joinUnits_text]
  rfl

theorem writeText_append (t rest : Text) :
    writeText t ++ rest = '"' :: (t.flatMap escape ++ '"' :: rest) := by
  simp [writeText]

end Texts

section Numbers

def EndsNumber (rest : Text) : Prop := ∀ c, rest.head? = some c → c.isDigit = false

theorem readNat_ofNat (n : Nat) (h : EndsNumber rest) :
    readNat (Text.ofNat n ++ rest) = some (n, rest) := by
  have ht : (Text.ofNat n ++ rest).takeWhile Char.isDigit = Text.ofNat n :=
    takeWhile_append_eq_iff.2 ⟨fun _ hc => Text.isDigit_of_mem_ofNat hc, h⟩
  have hd : (Text.ofNat n ++ rest).dropWhile Char.isDigit = rest := by
    have hs := List.takeWhile_append_dropWhile (p := Char.isDigit) (l := Text.ofNat n ++ rest)
    rw [ht] at hs
    exact List.append_cancel_left hs
  have hzero : ¬ ((Text.ofNat n).head? = some '0' ∧ Text.ofNat n ≠ ['0']) := by
    intro ⟨hh, hne⟩
    rw [Text.head?_ofNat hh] at hne
    exact hne rfl
  have hvalue : Nat.ofDigitChars 10 (Text.ofNat n) 0 = n :=
    Nat.ofDigitChars_toDigits (by decide) (by decide)
  unfold readNat
  dsimp only
  rw [ht, hd, if_neg (not_or.2 ⟨Text.ofNat_ne_nil n, hzero⟩), hvalue]

theorem exists_digit_ofNat (n : Nat) : ∃ c t, Text.ofNat n = c :: t ∧ c.isDigit = true := by
  obtain ⟨c, t, ht⟩ := List.exists_cons_of_ne_nil (Text.ofNat_ne_nil n)
  exact ⟨c, t, ht, Text.isDigit_of_mem_ofNat (ht ▸ List.mem_cons_self)⟩

theorem readInt_ofInt (n : Int) (h : EndsNumber rest) :
    readInt (Text.ofInt n ++ rest) = some (n, rest) := by
  cases n with
  | ofNat n =>
    obtain ⟨c, t, ht, hc⟩ := exists_digit_ofNat n
    have hread := readNat_ofNat n h
    change readInt (Text.ofNat n ++ rest) = _
    rw [ht, List.cons_append] at hread ⊢
    rw [readInt.eq_2, hread]
    · rfl
    · rintro _ hminus
      cases hminus
      cases hc
  | negSucc n =>
    change (readNat (Text.ofNat (n + 1) ++ rest)).map _ = _
    rw [readNat_ofNat (n + 1) h]
    rfl

end Numbers

section Space

theorem skipSpace_cons (h : isSpace c = false) (t : Text) : skipSpace (c :: t) = c :: t := by
  simp [skipSpace, h]

theorem skipSpace_breakAt (h : isSpace c = false) (depth : Nat) (t : Text) :
    skipSpace (breakAt depth ++ c :: t) = c :: t := by
  have hspace : ∀ x ∈ breakAt depth, isSpace x = true := by
    intro x hx
    rcases List.mem_cons.1 hx with rfl | hx
    · rfl
    · rw [List.eq_of_mem_replicate hx]
      rfl
  unfold skipSpace
  exact dropWhile_append_cons hspace h t

theorem endsNumber_breakAt (depth : Nat) (t : Text) : EndsNumber (breakAt depth ++ t) := by
  rintro c hc
  cases hc
  rfl

theorem endsNumber_cons (h : c.isDigit = false) (t : Text) : EndsNumber (c :: t) := by
  rintro x hx
  cases hx
  exact h

end Space

/-- The first character of a value: it is no space and closes nothing. -/
theorem exists_writeAt (depth : Nat) (v : Json) :
    ∃ c t, v.writeAt depth = c :: t ∧ isSpace c = false ∧ c ≠ ']' := by
  have hdigit : ∀ {c : Char}, c.isDigit = true → isSpace c = false ∧ c ≠ ']' := by
    intro c hc
    constructor
    · by_contra hs
      simp only [isSpace, Bool.not_eq_false, Bool.or_eq_true, beq_iff_eq] at hs
      rcases hs with ((rfl | rfl) | rfl) | rfl <;> cases hc
    · rintro rfl
      cases hc
  cases v with
  | int n =>
    cases n with
    | ofNat n =>
      obtain ⟨c, t, ht, hc⟩ := exists_digit_ofNat n
      rw [writeAt]
      exact ⟨c, t, ht, hdigit hc⟩
    | negSucc n =>
      rw [writeAt]
      exact ⟨'-', _, rfl, rfl, by decide⟩
  | text s =>
    rw [writeAt]
    exact ⟨'"', _, rfl, rfl, by decide⟩
  | array vs =>
    cases vs with
    | nil =>
      rw [writeAt]
      exact ⟨'[', _, rfl, rfl, by decide⟩
    | cons v vs =>
      rw [writeAt]
      exact ⟨'[', _, rfl, rfl, by decide⟩
  | object fs =>
    cases fs with
    | nil =>
      rw [writeAt]
      exact ⟨'\x7b', _, rfl, rfl, by decide⟩
    | cons f fs =>
      rw [writeAt]
      exact ⟨'\x7b', _, rfl, rfl, by decide⟩

theorem skipSpace_writeAt (depth depth' : Nat) (v : Json) (t : Text) :
    skipSpace (breakAt depth' ++ (v.writeAt depth ++ t)) = v.writeAt depth ++ t := by
  obtain ⟨c, u, hu, hc, -⟩ := exists_writeAt depth v
  rw [hu, List.cons_append]
  exact skipSpace_breakAt hc depth' _

section Values

/-- Behind a number, as behind any value, nothing stands that goes on with it. -/
theorem readValue_int (n : Int) (h : EndsNumber rest) :
    readValue (Text.ofInt n ++ rest) = some (int n, skipSpace rest) := by
  have hread := readInt_ofInt n h
  rw [readValue.eq_4, hread]
  · rfl
  all_goals
    intro _ hcons
    rw [hcons] at hread
    cases hread

theorem readValue_text (s rest : Text) :
    readValue (writeText s ++ rest) = some (text s, skipSpace rest) := by
  rw [writeText_append, readValue, readText_text]
  rfl

theorem skipSpace_writeText (depth : Nat) (s t : Text) :
    skipSpace (breakAt depth ++ (writeText s ++ t)) = writeText s ++ t := by
  rw [writeText_append]
  exact skipSpace_breakAt rfl depth _

theorem readKey_text (key : Text) (depth : Nat) (v : Json) (rest : Text) :
    readKey (writeText key ++ ':' :: ' ' :: (v.writeAt depth ++ rest)) =
      some (key, v.writeAt depth ++ rest) := by
  obtain ⟨c, t, ht, hc, -⟩ := exists_writeAt depth v
  have hspace : skipSpace (' ' :: (v.writeAt depth ++ rest)) = v.writeAt depth ++ rest := by
    rw [ht]
    exact skipSpace_cons hc _
  rw [writeText_append, readKey, readText_text]
  exact congrArg (fun t => some (key, t)) hspace

theorem readValue_array {inner : Text} {vs : List Json} (ht : skipSpace t = inner)
    (hne : inner.head? ≠ some ']') (hr : readItems inner = some (vs, rest)) :
    readValue ('[' :: t) = some (array vs, rest) := by
  rw [readValue, ht]
  split
  · exact absurd rfl hne
  · rw [hr]
    rfl

theorem readValue_object {inner : Text} {fs : List (Text × Json)} (ht : skipSpace t = inner)
    (hne : inner.head? ≠ some '\x7d') (hr : readFields inner = some (fs, rest)) :
    readValue ('\x7b' :: t) = some (object fs, rest) := by
  rw [readValue, ht]
  split
  · exact absurd rfl hne
  · rw [hr]
    rfl

theorem readItems_last {v : Json} (h : readValue t = some (v, ']' :: rest)) :
    readItems t = some ([v], skipSpace rest) := by
  rw [readItems, h]
  rfl

theorem readItems_more {v : Json} (h : readValue t = some (v, ',' :: rest))
    (hl : rest.length < t.length) :
    readItems t = (readItems (skipSpace rest)).map fun (vs, behind) => (v :: vs, behind) := by
  rw [readItems, h]
  exact if_pos hl

theorem readFields_last {key inner : Text} {v : Json} (hk : readKey t = some (key, inner))
    (hi : inner.length < t.length) (h : readValue inner = some (v, '\x7d' :: rest)) :
    readFields t = some ([(key, v)], skipSpace rest) := by
  rw [readFields, hk]
  dsimp only
  rw [if_pos hi, h]
  rfl

theorem readFields_more {key inner : Text} {v : Json} (hk : readKey t = some (key, inner))
    (hi : inner.length < t.length) (h : readValue inner = some (v, ',' :: rest))
    (hl : rest.length < t.length) :
    readFields t =
      (readFields (skipSpace rest)).map fun (fs, behind) => ((key, v) :: fs, behind) := by
  rw [readFields, hk]
  dsimp only
  rw [if_pos hi, h]
  exact if_pos hl

end Values

mutual

/-- A value is read back from what is written for it, whatever stands behind. -/
theorem readValue_writeAt (v : Json) (depth : Nat) (rest : Text) (h : EndsNumber rest) :
    readValue (v.writeAt depth ++ rest) = some (v, skipSpace rest) := by
  match v with
  | int n =>
    rw [writeAt]
    exact readValue_int n h
  | text s =>
    rw [writeAt]
    exact readValue_text s rest
  | array [] =>
    rw [writeAt, List.cons_append, List.singleton_append, readValue, skipSpace_cons rfl]
    rfl
  | array (v :: vs) =>
    have hitems := readItems_writeItems vs v (depth + 1) depth rest
      (readValue_writeAt v (depth + 1))
    obtain ⟨c, t, hc, -, hne⟩ := exists_writeAt (depth + 1) v
    rw [writeAt]
    simp only [List.cons_append, List.append_assoc, List.nil_append]
    refine readValue_array (skipSpace_writeAt (depth + 1) (depth + 1) v _) ?_ hitems
    rw [hc]
    simpa using hne
  | object [] =>
    rw [writeAt, List.cons_append, List.singleton_append, readValue, skipSpace_cons rfl]
    rfl
  | object ((key, v) :: fs) =>
    have hfields := readFields_writeFields fs key v (depth + 1) depth rest
      (readValue_writeAt v (depth + 1))
    rw [writeAt]
    simp only [List.cons_append, List.append_assoc, List.nil_append]
    refine readValue_object (skipSpace_writeText (depth + 1) key _) ?_ hfields
    simp [writeText]

theorem readItems_writeItems (vs : List Json) (v : Json) (depth outer : Nat) (rest : Text)
    (hv : ∀ behind, EndsNumber behind →
      readValue (v.writeAt depth ++ behind) = some (v, skipSpace behind)) :
    readItems (v.writeAt depth ++ (writeItems depth vs ++ (breakAt outer ++ ']' :: rest))) =
      some (v :: vs, skipSpace rest) := by
  match vs with
  | [] =>
    have hlast := hv _ (endsNumber_breakAt outer (']' :: rest))
    rw [skipSpace_breakAt rfl] at hlast
    exact readItems_last hlast
  | w :: ws =>
    have hmore := readItems_writeItems ws w depth outer rest (readValue_writeAt w depth)
    rw [writeItems]
    simp only [List.cons_append, List.append_assoc]
    have hnext := hv _ (endsNumber_cons (c := ',') rfl (breakAt depth ++ (w.writeAt depth ++
      (writeItems depth ws ++ (breakAt outer ++ ']' :: rest)))))
    rw [skipSpace_cons rfl] at hnext
    rw [readItems_more hnext (by simp only [List.length_append, List.length_cons]; omega),
      skipSpace_writeAt, hmore]
    rfl

theorem readFields_writeFields (fs : List (Text × Json)) (key : Text) (v : Json)
    (depth outer : Nat) (rest : Text)
    (hv : ∀ behind, EndsNumber behind →
      readValue (v.writeAt depth ++ behind) = some (v, skipSpace behind)) :
    readFields (writeText key ++ ':' :: ' ' :: (v.writeAt depth ++
      (writeFields depth fs ++ (breakAt outer ++ '\x7d' :: rest)))) =
      some ((key, v) :: fs, skipSpace rest) := by
  match fs with
  | [] =>
    have hlast := hv _ (endsNumber_breakAt outer ('\x7d' :: rest))
    rw [skipSpace_breakAt rfl] at hlast
    refine readFields_last (readKey_text key depth v _) ?_ hlast
    simp only [writeFields, List.nil_append, List.length_append, List.length_cons]
    omega
  | (k, w) :: ws =>
    have hmore := readFields_writeFields ws k w depth outer rest (readValue_writeAt w depth)
    rw [writeFields]
    simp only [List.cons_append, List.append_assoc, List.nil_append]
    have hnext := hv _ (endsNumber_cons (c := ',') rfl (breakAt depth ++ (writeText k ++
      ':' :: ' ' :: (w.writeAt depth ++
        (writeFields depth ws ++ (breakAt outer ++ '\x7d' :: rest))))))
    rw [skipSpace_cons rfl] at hnext
    rw [readFields_more (readKey_text key depth v _)
        (by simp only [List.length_append, List.length_cons]; omega) hnext
        (by simp only [List.length_append, List.length_cons]; omega),
      skipSpace_writeText, hmore]
    rfl

end

theorem read_write_append (v : Json) (space : Text) (h : ∀ c ∈ space, isSpace c = true) :
    read (v.write ++ space) = some v := by
  have hends : EndsNumber space := by
    intro c hc
    have hspace := h c (List.mem_of_mem_head? hc)
    simp only [isSpace, Bool.or_eq_true, beq_iff_eq] at hspace
    rcases hspace with ((rfl | rfl) | rfl) | rfl <;> rfl
  have hnone : skipSpace space = [] := List.dropWhile_eq_nil_iff.2 h
  have hread := readValue_writeAt v 0 space hends
  have hbegin : skipSpace (v.writeAt 0 ++ space) = v.writeAt 0 ++ space := by
    obtain ⟨c, t, ht, hc, -⟩ := exists_writeAt 0 v
    rw [ht, List.cons_append]
    exact skipSpace_cons hc _
  unfold read write
  rw [hbegin, hread, hnone]

/-- What is written is read as it was. -/
theorem read_write (v : Json) : read v.write = some v := by
  have hread := read_write_append v [] (by simp)
  rwa [List.append_nil] at hread

section Ascii

def Ascii (t : Text) : Prop := ∀ c ∈ t, c.toNat < 0x80

@[simp] theorem ascii_nil : Ascii [] := by simp [Ascii]

@[simp] theorem ascii_cons : Ascii (c :: t) ↔ c.toNat < 0x80 ∧ Ascii t := by simp [Ascii]

@[simp] theorem ascii_append : Ascii (t ++ rest) ↔ Ascii t ∧ Ascii rest := by
  simp [Ascii, or_imp, forall_and]

theorem ascii_hexDigits (width n : Nat) : Ascii (Text.hexDigits width n) := by
  have hdigit : ∀ d < 16, d.digitChar.toNat < 0x80 := by decide
  induction width generalizing n with
  | zero => exact ascii_nil
  | succ width ih =>
    exact ascii_append.2
      ⟨ih (n / 16), ascii_cons.2 ⟨hdigit _ (Nat.mod_lt n (by decide)), ascii_nil⟩⟩

theorem ascii_unit (n : Nat) : Ascii (unit n) :=
  ascii_cons.2 ⟨by decide, ascii_cons.2 ⟨by decide, ascii_hexDigits 4 n⟩⟩

theorem ascii_escape (c : Char) : Ascii (escape c) := by
  have hshort : ∀ {e : Char}, e.toNat < 0x80 → Ascii ['\\', e] := fun he =>
    ascii_cons.2 ⟨by decide, ascii_cons.2 ⟨he, ascii_nil⟩⟩
  unfold escape
  iterate 7
    split
    · exact hshort (by decide)
  split
  · rename_i hv
    exact ascii_cons.2 ⟨by omega, ascii_nil⟩
  split
  · exact ascii_unit _
  · exact ascii_append.2 ⟨ascii_unit _, ascii_unit _⟩

@[simp] theorem ascii_writeText (t : Text) : Ascii (writeText t) := by
  have hbody : Ascii (t.flatMap escape) := by
    intro x hx
    obtain ⟨c, -, hc⟩ := List.mem_flatMap.1 hx
    exact ascii_escape c x hc
  exact ascii_append.2
    ⟨ascii_cons.2 ⟨by decide, hbody⟩, ascii_cons.2 ⟨by decide, ascii_nil⟩⟩

theorem ascii_ofNat (n : Nat) : Ascii (Text.ofNat n) := by
  intro c hc
  have hd := Text.isDigit_of_mem_ofNat hc
  simp only [Char.isDigit, Bool.and_eq_true, decide_eq_true_eq, UInt32.le_iff_toNat_le] at hd
  have hh : c.toNat ≤ 57 := hd.2
  omega

@[simp] theorem ascii_ofInt (n : Int) : Ascii (Text.ofInt n) := by
  cases n with
  | ofNat n => exact ascii_ofNat n
  | negSucc n => exact ascii_cons.2 ⟨by decide, ascii_ofNat (n + 1)⟩

@[simp] theorem ascii_breakAt (depth : Nat) : Ascii (breakAt depth) := by
  refine ascii_cons.2 ⟨by decide, fun c hc => ?_⟩
  rw [List.eq_of_mem_replicate hc]
  decide

mutual

theorem ascii_writeAt (v : Json) (depth : Nat) : Ascii (v.writeAt depth) := by
  match v with
  | int n => rw [writeAt]; exact ascii_ofInt n
  | text s => rw [writeAt]; exact ascii_writeText s
  | array [] => rw [writeAt]; simp
  | array (v :: vs) =>
    have hv := ascii_writeAt v (depth + 1)
    have hvs := ascii_writeItems vs (depth + 1)
    rw [writeAt]
    simp [hv, hvs]
  | object [] => rw [writeAt]; simp
  | object ((key, v) :: fs) =>
    have hv := ascii_writeAt v (depth + 1)
    have hfs := ascii_writeFields fs (depth + 1)
    rw [writeAt]
    simp [hv, hfs]

theorem ascii_writeItems (vs : List Json) (depth : Nat) : Ascii (writeItems depth vs) := by
  match vs with
  | [] => rw [writeItems]; exact ascii_nil
  | v :: vs =>
    have hv := ascii_writeAt v depth
    have hvs := ascii_writeItems vs depth
    rw [writeItems]
    simp [hv, hvs]

theorem ascii_writeFields (fs : List (Text × Json)) (depth : Nat) :
    Ascii (writeFields depth fs) := by
  match fs with
  | [] => rw [writeFields]; exact ascii_nil
  | (key, v) :: fs =>
    have hv := ascii_writeAt v depth
    have hfs := ascii_writeFields fs depth
    rw [writeFields]
    simp [hv, hfs]

end

theorem ascii_write (v : Json) : Ascii v.write := ascii_writeAt v 0

end Ascii

end Json
end Offside
