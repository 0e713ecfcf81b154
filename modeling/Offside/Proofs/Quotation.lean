import Mathlib.Data.List.Basic
import Offside.Proofs.JsonRoundTrip
import Offside.Proofs.Classes
import Offside.Scan.Literal
import Offside.Text.Quoted
import Offside.Unicode.WhiteSpace

/-! Quoted texts are read back, whatever stands behind them, and all of their characters are
printable. -/
namespace Offside

namespace Unicode

variable {c : Char}

theorem isPrintable_of_ascii (h : 0x20 ≤ c.toNat) (h' : c.toNat ≤ 0x7E) :
    isPrintable c = true := by
  unfold isPrintable
  rw [if_pos (by omega)]
  exact (RangeTable.contains_iff printableBasic_ascending c.toNat).2
    ⟨(0x20, 0x7E), List.mem_cons_self, h, h'⟩

theorem not_contains_of_isPrintable {table : RangeTable} {start : Nat}
    (ht : table.ascendingFrom start) (hbasic : printableBasic.apart table = true)
    (hbeyond : printableBeyond.apart table = true) (h : isPrintable c = true) :
    table.contains c.toNat = false := by
  unfold isPrintable at h
  split at h
  · exact RangeTable.not_contains_of_apart printableBasic_ascending ht hbasic h
  · exact RangeTable.not_contains_of_apart printableBeyond_ascending ht hbeyond h

def unseen : RangeTable := [
    (0x0, 0x1F), (0x7F, 0xA0), (0x1680, 0x1680), (0x2000, 0x200A), (0x2028, 0x2029),
    (0x202F, 0x202F), (0x205F, 0x205F), (0x3000, 0x3000)]

theorem unseen_ascending : unseen.ascendingFrom 0 := by decide +kernel

theorem not_unseen_of_isPrintable (h : isPrintable c = true) : unseen.contains c.toNat = false :=
  not_contains_of_isPrintable unseen_ascending (by decide +kernel) (by decide +kernel) h

def isControl (c : Char) : Bool := c.toNat < 0x20 || 0x7F ≤ c.toNat && c.toNat ≤ 0x9F

theorem not_isControl_of_isPrintable (h : isPrintable c = true) : isControl c = false := by
  have hn := not_unseen_of_isPrintable h
  rw [← Bool.not_eq_true] at hn ⊢
  rw [RangeTable.contains_iff unseen_ascending] at hn
  intro hc
  simp only [isControl, Bool.or_eq_true, Bool.and_eq_true, decide_eq_true_eq] at hc
  rcases hc with hlow | ⟨hlo, hhi⟩
  · exact hn ⟨(0x0, 0x1F), by decide, by omega, by omega⟩
  · exact hn ⟨(0x7F, 0xA0), by decide, hlo, by omega⟩

theorem eq_space_of_isWhiteSpace (hp : isPrintable c = true) (h : isWhiteSpace c = true) :
    c = ' ' := by
  have hn := not_unseen_of_isPrintable hp
  rw [← Bool.not_eq_true, RangeTable.contains_iff unseen_ascending] at hn
  obtain ⟨r, hr, hlo, hhi⟩ := (RangeTable.contains_iff whiteSpace_ascending _).1 h
  have hall : ∀ r ∈ whiteSpace, (r = (0x1C, 0x20)) ∨ ∃ q ∈ unseen, q.1 ≤ r.1 ∧ r.2 ≤ q.2 := by
    decide +kernel
  rcases hall r hr with rfl | ⟨q, hq, hqlo, hqhi⟩
  · have hspace : c.toNat = ' '.toNat := by
      have hcontrol : ¬ c.toNat ≤ 0x1F := fun hc => hn ⟨(0x0, 0x1F), by decide, by omega, hc⟩
      change c.toNat = 0x20
      omega
    exact Char.toNat_inj.1 hspace
  · exact absurd ⟨q, hq, by omega, by omega⟩ hn

end Unicode

namespace Quoted

variable {d c : Char} {t rest : Text} {width : Nat}

def readNumeric (width : Nat) (t : Text) : Option (Char × Text) :=
  (Json.hexNumber? (t.take width)).map fun n => (.ofNat n, t.drop width)

/-- The character that a quoted text begins with, and what stands behind it. -/
def readChar : Text → Option (Char × Text)
  | [] => none
  | ['\\'] => none
  | '\\' :: 'x' :: rest => readNumeric 2 rest
  | '\\' :: 'u' :: rest => readNumeric 4 rest
  | '\\' :: 'U' :: rest => readNumeric 8 rest
  | '\\' :: c :: rest => some (Literal.unescape c, rest)
  | c :: rest => some (c, rest)

/-- The text up to its closing delimiter, and what stands behind that. A character always takes
some of the text; the test makes that known. -/
def readUpTo (d : Char) (t : Text) : Option (Text × Text) :=
  if t.head? = some d then some ([], t.tail)
  else match readChar t with
    | none => none
    | some (c, rest) =>
      if rest.length < t.length then
        (readUpTo d rest).map fun (cs, behind) => (c :: cs, behind)
      else none
termination_by t.length

def read? : Text → Option (Text × Text)
  | '\x27' :: rest => readUpTo '\x27' rest
  | '"' :: rest => readUpTo '"' rest
  | _ => none

def delimiters : List Char := ['\x27', '"']

theorem delimiter_mem (t : Text) : delimiter t ∈ delimiters := by
  unfold delimiter
  split
  · decide
  · decide

/-- What may stand behind a backslash without digits: itself, a delimiter or a letter. -/
def shorts : List Char := ['\x27', '"', '\\', 't', 'n', 'r']

/-- The letters behind a backslash that digits follow, with how many of them. -/
def widths : List (Char × Nat) := [('x', 2), ('u', 4), ('U', 8)]

/-- The ways in which a character is written between delimiters. -/
inductive Writes (d : Char) : Char → Text → Prop
  | plain {c : Char} (hp : Unicode.isPrintable c = true) (hd : c ≠ d) (hb : c ≠ '\\') :
      Writes d c [c]
  | short {e : Char} (he : e ∈ shorts) : Writes d (Literal.unescape e) ['\\', e]
  | numeric {c e : Char} {width : Nat} (he : (e, width) ∈ widths) (hc : c.toNat < 16 ^ width) :
      Writes d c ('\\' :: e :: Text.hexDigits width c.toNat)

theorem writes_numeric (d c : Char) : Writes d c (numeric c) := by
  unfold numeric
  split
  · exact .numeric (by decide) ‹_›
  split
  · exact .numeric (by decide) ‹_›
  · exact .numeric (by decide) (Nat.lt_of_lt_of_le (Text.toNat_lt c) (by decide))

theorem writes_escape (hd : d ∈ delimiters) (c : Char) : Writes d c (escape d c) := by
  have hshort : ∀ {e : Char}, e ∈ shorts → Literal.unescape e = c → Writes d c ['\\', e] := by
    rintro e he rfl
    exact .short he
  -- These three stand for themselves behind a backslash.
  have hself : ∀ x ∈ '\\' :: delimiters, x ∈ shorts ∧ Literal.unescape x = x := by
    intro x hx
    simp only [delimiters, List.mem_cons, List.not_mem_nil, or_false] at hx
    rcases hx with rfl | rfl | rfl <;> decide
  unfold escape
  split
  · rename_i hc
    have hmem : c ∈ '\\' :: delimiters := by
      rcases hc with rfl | rfl
      · exact List.mem_cons_of_mem _ hd
      · exact List.mem_cons_self
    obtain ⟨he, hc⟩ := hself c hmem
    exact hshort he hc
  rename_i hc
  rw [not_or] at hc
  split
  · subst c
    exact hshort (by decide) rfl
  split
  · subst c
    exact hshort (by decide) rfl
  split
  · subst c
    exact hshort (by decide) rfl
  split
  · exact .plain ‹_› hc.1 hc.2
  · exact writes_numeric d c

theorem Writes.ne_nil (h : Writes d c t) : t ≠ [] := by
  cases h <;> exact List.cons_ne_nil _ _

section Read

theorem readNumeric_hexDigits (h : c.toNat < 16 ^ width) (rest : Text) :
    readNumeric width (Text.hexDigits width c.toNat ++ rest) = some (c, rest) := by
  unfold readNumeric
  rw [List.take_left' (Text.length_hexDigits ..), List.drop_left' (Text.length_hexDigits ..),
    Json.hexNumber?_hexDigits h, Option.map_some, Char.ofNat_toNat]

/-- No written character is the beginning of another one. -/
theorem Writes.readChar_append (h : Writes d c t) (rest : Text) :
    readChar (t ++ rest) = some (c, rest) := by
  cases h with
  | plain _ _ hb =>
    rw [List.singleton_append, readChar.eq_def]
    split <;> simp_all
  | short he =>
    simp only [shorts, List.mem_cons, List.not_mem_nil, or_false] at he
    rcases he with rfl | rfl | rfl | rfl | rfl | rfl <;> rfl
  | numeric he hc =>
    simp only [widths, List.mem_cons, Prod.mk.injEq, List.not_mem_nil, or_false] at he
    rcases he with ⟨rfl, rfl⟩ | ⟨rfl, rfl⟩ | ⟨rfl, rfl⟩
    · exact readNumeric_hexDigits hc rest
    · exact readNumeric_hexDigits hc rest
    · exact readNumeric_hexDigits hc rest

theorem Writes.head?_ne (h : Writes d c t) (hd : d ∈ delimiters) (rest : Text) :
    (t ++ rest).head? ≠ some d := by
  have hb : '\\' ≠ d := by
    rintro rfl
    simp [delimiters] at hd
  cases h with
  | plain _ hc => simp [hc]
  | short => simp [hb]
  | numeric => simp [hb]

theorem readUpTo_escaped (hd : d ∈ delimiters) (t rest : Text) :
    readUpTo d (t.flatMap (escape d) ++ d :: rest) = some (t, rest) := by
  induction t with
  | nil =>
    rw [readUpTo]
    exact if_pos rfl
  | cons c t ih =>
    have hw := writes_escape hd c
    have hlength : (t.flatMap (escape d) ++ d :: rest).length <
        (escape d c ++ (t.flatMap (escape d) ++ d :: rest)).length := by
      have hpos := List.length_pos_iff.2 hw.ne_nil
      simp only [List.length_append]
      omega
    rw [List.flatMap_cons, List.append_assoc, readUpTo, if_neg (hw.head?_ne hd _),
      hw.readChar_append]
    dsimp only
    rw [if_pos hlength, ih]
    rfl

/-- Whatever a text holds, its quotation ends where it seems to. -/
theorem read?_quote (t rest : Text) : read? (quote t ++ rest) = some (t, rest) := by
  have hquote : quote t ++ rest =
      delimiter t :: (t.flatMap (escape (delimiter t)) ++ delimiter t :: rest) := by
    simp [quote]
  have hd := delimiter_mem t
  have hread := readUpTo_escaped hd t rest
  rw [hquote]
  generalize delimiter t = d at hd hread
  simp only [delimiters, List.mem_cons, List.not_mem_nil, or_false] at hd
  rcases hd with rfl | rfl
  · exact hread
  · exact hread

end Read

section Printable

open Unicode

theorem isPrintable_of_mem_hexDigits {n : Nat} (h : c ∈ Text.hexDigits width n) :
    isPrintable c = true := by
  have hall : ∀ d < 16, isPrintable d.digitChar = true := by decide +kernel
  induction width generalizing n with
  | zero => cases h
  | succ width ih =>
    rcases List.mem_append.1 h with h | h
    · exact ih h
    · rw [List.mem_singleton.1 h]
      exact hall _ (Nat.mod_lt n (by decide))

theorem Writes.isPrintable {x : Char} (h : Writes d c t) (hx : x ∈ t) :
    Unicode.isPrintable x = true := by
  have hshorts : shorts.all Unicode.isPrintable = true := by decide +kernel
  have hwidths : widths.all (fun e => Unicode.isPrintable e.1) = true := by decide +kernel
  have hb : Unicode.isPrintable '\\' = true := by decide +kernel
  cases h with
  | plain hp =>
    rw [List.mem_singleton.1 hx]
    exact hp
  | @short e he =>
    rcases List.mem_cons.1 hx with rfl | hx
    · exact hb
    · rw [List.mem_singleton.1 hx]
      exact List.all_eq_true.1 hshorts e he
  | @numeric _ e width he =>
    rcases List.mem_cons.1 hx with rfl | hx
    · exact hb
    rcases List.mem_cons.1 hx with rfl | hx
    · exact List.all_eq_true.1 hwidths (x, width) he
    · exact isPrintable_of_mem_hexDigits hx

theorem isPrintable_of_mem_quote {x : Char} (h : x ∈ quote t) : isPrintable x = true := by
  have hd := delimiter_mem t
  have hdelimiter : isPrintable (delimiter t) = true := by
    have hall : delimiters.all isPrintable = true := by decide +kernel
    exact List.all_eq_true.1 hall _ hd
  simp only [quote, List.cons_append, List.mem_cons, List.mem_append, List.not_mem_nil,
    or_false] at h
  rcases h with rfl | h | rfl
  · exact hdelimiter
  · obtain ⟨c, -, hx⟩ := List.mem_flatMap.1 h
    exact (writes_escape hd c).isPrintable hx
  · exact hdelimiter

end Printable

end Quoted
end Offside
