import Offside.Proofs.Spelling
import Offside.Token.Basic

/-! The shape of a stream of tokens: lines with the layout between them, and the end. -/
namespace Offside

/-- A token without its place. -/
abbrev Form := Kind × Text

def Token.form (t : Token) : Form := (t.kind, t.lexeme)

theorem Content.not_structural {kind : Kind} {lexeme : Text} (h : Content kind lexeme) :
    kind.family? ≠ some .structural := by
  cases h with
  | string => decide
  | comment => decide
  | number => decide
  | identifier => decide
  | reserved hw =>
    have hall : ∀ entry ∈ Kind.words, entry.2.family? ≠ some .structural := by decide
    exact hall _ hw
  | symbol hs =>
    have hall : ∀ entry ∈ Kind.symbols, entry.2.family? ≠ some .structural := by decide
    exact hall _ hs

namespace Grammar

/-- What a line holds: one token or more, with a comment only at the end. -/
structure Contents (forms : List Form) : Prop where
  ne_nil : forms ≠ []
  content : ∀ f ∈ forms, Content f.1 f.2
  comment : ∀ f ∈ forms.dropLast, f.1 ≠ .comment

/-- The layout in front of a line, with the number of open levels before and behind it. -/
inductive Layout : Nat → List Form → Nat → Prop
  | same {level} : Layout level [] level
  | deeper {level} : Layout level [(.indent, [])] (level + 1)
  | shallower {level k} (hk : 1 ≤ k) (hl : k ≤ level) :
      Layout level (List.replicate k (.dedent, [])) (level - k)

/-- A line, with the number of open levels before and behind it. What may end it is left open. -/
inductive Line (ends : Text → Prop) : Nat → List Form → Nat → Prop
  | blank {level ending} (he : ends ending) : Line ends level [(.newline, ending)] level
  | content {level level' layout contents ending} (hl : Layout level layout level')
      (hc : Contents contents) (he : ends ending) :
      Line ends level (layout ++ contents ++ [(.newline, ending)]) level'

inductive Lines (ends : Text → Prop) : Nat → List Form → Nat → Prop
  | nil {level} : Lines ends level [] level
  | snoc {start level level' lines line} (hs : Lines ends start lines level)
      (hl : Line ends level line level') : Lines ends start (lines ++ line) level'

/-- One line or more, the last of which may end in its own way; then the levels that are still
open are closed, and the input ends. -/
inductive Stream (ends last : Text → Prop) : List Form → Prop
  | intro {lines line level level'} (hs : Lines ends 0 lines level)
      (hl : Line last level line level') :
      Stream ends last (lines ++ line ++ List.replicate level' (.dedent, []) ++ [(.eof, [])])

def IsLineEnd (t : Text) : Prop := t = ['\n'] ∨ t = ['\r', '\n'] ∨ t = ['\r']

variable {ends last : Text → Prop} {level level' : Nat} {forms : List Form}

section Contents

variable {f g : Form}

theorem Contents.singleton (h : Content f.1 f.2) : Contents [f] := by
  refine ⟨nofun, fun x hx => ?_, nofun⟩
  rw [List.mem_singleton.1 hx]
  exact h

theorem Contents.cons (h : Content f.1 f.2) (hn : f.1 ≠ .comment) (hc : Contents forms) :
    Contents (f :: forms) := by
  refine ⟨nofun, fun x hx => ?_, fun x hx => ?_⟩
  · rcases List.mem_cons.1 hx with rfl | hx
    · exact h
    · exact hc.content x hx
  · rw [List.dropLast_cons_of_ne_nil hc.ne_nil] at hx
    rcases List.mem_cons.1 hx with rfl | hx
    · exact hn
    · exact hc.comment x hx

theorem Contents.eq_nil_of_comment (hc : Contents (f :: forms))
    (hk : f.1 = .comment) : forms = [] := by
  cases forms with
  | nil => rfl
  | cons g forms => exact absurd hk (hc.comment f (by simp))

theorem Contents.tail (hc : Contents (f :: g :: forms)) :
    Contents (g :: forms) := by
  refine ⟨nofun, fun x hx => hc.content x (List.mem_cons_of_mem f hx), fun x hx => ?_⟩
  refine hc.comment x ?_
  rw [List.dropLast_cons_of_ne_nil (List.cons_ne_nil g forms)]
  exact List.mem_cons_of_mem f hx

end Contents

theorem Line.mono (h : Line ends level forms level') (hm : ∀ t, ends t → last t) :
    Line last level forms level' := by
  cases h with
  | blank he => exact .blank (hm _ he)
  | content hl hc he => exact .content hl hc (hm _ he)

def lineEnded (forms : List Form) : Bool := forms.getLast?.any (·.1 == .newline)

theorem lineEnded_concat (forms : List Form) (ending : Text) :
    lineEnded (forms ++ [(.newline, ending)]) = true := by
  rw [lineEnded, List.getLast?_concat]
  rfl

theorem Line.lineEnded_append (h : Line ends level forms level') (before : List Form) :
    lineEnded (before ++ forms) = true := by
  cases h with
  | blank => exact lineEnded_concat before _
  | content =>
    rw [← List.append_assoc]
    exact lineEnded_concat _ _

theorem Contents.not_lineEnded_append (hc : Contents forms) (before : List Form) :
    lineEnded (before ++ forms) = false := by
  rcases List.eq_nil_or_concat forms with rfl | ⟨front, f, rfl⟩
  · exact absurd rfl hc.ne_nil
  rw [List.concat_eq_append] at hc ⊢
  have hk := (hc.content f (by simp)).not_structural
  rw [← List.append_assoc, lineEnded, List.getLast?_concat]
  refine beq_eq_false_iff_ne.2 fun he => hk ?_
  rw [he]
  rfl

end Grammar
end Offside
