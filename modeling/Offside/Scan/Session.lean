import Offside.Scan.Basic

/-! Scanning again and again with one scan that keeps its last state. -/
namespace Offside

/-- The mark shown may be overwritten from outside with any text. -/
structure Session where
  source : Text
  last : Scan
  mark : Option Text
deriving DecidableEq

namespace Session

def ofSource (source : Text) : Session := ⟨source, .start source, none⟩

def setSource (s : Session) (source : Text) : Session := { s with source }

def setMark (s : Session) (mark : Option Text) : Session := { s with mark }

def keep (s : Session) (last : Scan) : Session :=
  { s with last, mark := last.mark.map ([·]) }

def reset (s : Session) : Session := s.keep (.start s.source)

/-- Set the session back and run on from there. The state is kept whether a fault stops the run or
not. -/
def scan (s : Session) : Except Fault (List Token) × Session :=
  let s := s.reset
  match s.last.run with
  | .ok last => (.ok last.finish.tokens, s.keep last.finish)
  | .error stopped => (.error stopped.fault, s.keep stopped.scan)

theorem scan_eq_of_source (s : Session) :
    s.scan = match Scan.ofSource s.source with
      | .ok last => (.ok last.tokens, s.keep last)
      | .error stopped => (.error stopped.fault, s.keep stopped.scan) := by
  unfold scan reset keep Scan.ofSource
  dsimp only
  cases (Scan.start s.source).run <;> rfl

theorem scan_of_ok {s : Session} {last : Scan} (h : Scan.ofSource s.source = .ok last) :
    s.scan = (.ok last.tokens, s.keep last) := by
  rw [scan_eq_of_source, h]

theorem scan_of_error {s : Session} {stopped : Halt}
    (h : Scan.ofSource s.source = .error stopped) :
    s.scan = (.error stopped.fault, s.keep stopped.scan) := by
  rw [scan_eq_of_source, h]

theorem fst_scan (s : Session) : s.scan.1 = Offside.scan s.source := by
  unfold Offside.scan
  cases h : Scan.ofSource s.source with
  | error stopped => rw [scan_of_error h]
  | ok last => rw [scan_of_ok h]

/-- Nothing of an earlier scan is left after a scan. -/
theorem scan_eq (s : Session) : s.scan = (ofSource s.source).scan := rfl

/-! ### Steps -/

inductive Step where
  | new (source : Text)
  | setSource (source : Text)
  | setMark (mark : Option Text)
  | scan
deriving DecidableEq

/-- What a step answers if it scans, and the session behind it. -/
def perform (s : Session) : Step → Option (Except Fault (List Token)) × Session
  | .new source => (none, ofSource source)
  | .setSource source => (none, s.setSource source)
  | .setMark mark => (none, s.setMark mark)
  | .scan => s.scan.map some id

/-- What each of some steps answers, one after the other, and the session that it leaves. -/
def transcript (s : Session) :
    List Step → List (Option (Except Fault (List Token)) × Session)
  | [] => []
  | step :: steps => s.perform step :: (s.perform step).2.transcript steps

structure View where
  offset : Nat
  place : Position
  stack : List Nat
  mark : Option Text
  lineStart : Bool
  buffer : List Token
deriving DecidableEq

def view (s : Session) : View where
  offset := s.last.cursor.offset
  place := s.last.cursor.place
  stack := s.last.stack
  mark := s.mark
  lineStart := s.last.lineStart
  buffer := s.last.tokens

end Session
end Offside
