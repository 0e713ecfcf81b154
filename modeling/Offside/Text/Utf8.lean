import Offside.Text.Basic

/-! UTF-8, read strictly. -/
namespace Offside.Utf8

inductive Reason where
  | invalidStart | invalidContinuation | unexpectedEnd
deriving DecidableEq

def Reason.message : Reason → Text
  | invalidStart => "invalid start byte".toList
  | invalidContinuation => "invalid continuation byte".toList
  | unexpectedEnd => "unexpected end of data".toList

/-- The first octets that are no part of a text: a lead octet with those behind it that fit. -/
structure Fault where
  reason : Reason
  offset : Nat
  lead : UInt8
  width : Nat
deriving DecidableEq

/-- A single octet is shown, of several only the places. -/
def Fault.message (f : Fault) : Text :=
  "'utf-8' codec can't decode byte".toList ++
    (if f.width = 1 then
      " 0x".toList ++ Text.hexDigits 2 f.lead.toNat ++ " in position ".toList ++
        Text.ofNat f.offset
    else
      "s in position ".toList ++ Text.ofNat f.offset ++
        '-' :: Text.ofNat (f.offset + f.width - 1)) ++
    ':' :: ' ' :: f.reason.message

abbrev Band := Nat × Nat

def anyTail : Band := (0x80, 0xBF)

/-- The bands behind a lead octet leave out surrogates, numbers beyond the last code point and
longer forms of shorter sequences. -/
def bands? (lead : Nat) : Option (List Band) :=
  if lead < 0x80 then some []
  else if lead < 0xC2 then none
  else if lead < 0xE0 then some [anyTail]
  else if lead = 0xE0 then some [(0xA0, 0xBF), anyTail]
  else if lead = 0xED then some [(0x80, 0x9F), anyTail]
  else if lead < 0xF0 then some [anyTail, anyTail]
  else if lead = 0xF0 then some [(0x90, 0xBF), anyTail, anyTail]
  else if lead < 0xF4 then some [anyTail, anyTail, anyTail]
  else if lead = 0xF4 then some [(0x80, 0x8F), anyTail, anyTail]
  else none

def fitting : List Band → List UInt8 → Nat
  | band :: bands, b :: bs =>
    if band.1 ≤ b.toNat ∧ b.toNat ≤ band.2 then fitting bands bs + 1 else 0
  | _, _ => 0

def payload (lead tails : Nat) : Nat :=
  match tails with
  | 0 => lead
  | 1 => lead - 0xC0
  | 2 => lead - 0xE0
  | _ => lead - 0xF0

def number (lead : Nat) (tails : List UInt8) : Nat :=
  tails.foldl (fun n b => n * 0x40 + (b.toNat - 0x80)) (payload lead tails.length)

def decodeAt (offset : Nat) : List UInt8 → Except Fault Text
  | [] => .ok []
  | lead :: rest =>
    match bands? lead.toNat with
    | none => .error ⟨.invalidStart, offset, lead, 1⟩
    | some bands =>
      let found := fitting bands rest
      if found < bands.length then
        let reason := if found = rest.length then .unexpectedEnd else .invalidContinuation
        .error ⟨reason, offset, lead, found + 1⟩
      else do
        let text ← decodeAt (offset + found + 1) (rest.drop found)
        return .ofNat (number lead.toNat (rest.take found)) :: text
termination_by octets => octets.length

def decode (octets : List UInt8) : Except Fault Text := decodeAt 0 octets

def encodeChar (c : Char) : List UInt8 :=
  let n := c.toNat
  let tail (n : Nat) : UInt8 := .ofNat (0x80 + n % 0x40)
  if n < 0x80 then [.ofNat n]
  else if n < 0x800 then [.ofNat (0xC0 + n / 0x40), tail n]
  else if n < 0x10000 then [.ofNat (0xE0 + n / 0x1000), tail (n / 0x40), tail n]
  else [.ofNat (0xF0 + n / 0x40000), tail (n / 0x1000), tail (n / 0x40), tail n]

def encode (t : Text) : List UInt8 := t.flatMap encodeChar

end Offside.Utf8
