import Offside.Unicode.Ranges

/-! White space: bidirectional types WS, B and S, and the separators of category Zs. -/
namespace Offside.Unicode

def whiteSpace : RangeTable := [
    (0x9, 0xD), (0x1C, 0x20), (0x85, 0x85), (0xA0, 0xA0), (0x1680, 0x1680), (0x2000, 0x200A),
    (0x2028, 0x2029), (0x202F, 0x202F), (0x205F, 0x205F), (0x3000, 0x3000)]

theorem whiteSpace_ascending : whiteSpace.ascendingFrom 0 := by decide +kernel

def isWhiteSpace (c : Char) : Bool := whiteSpace.contains c.toNat

end Offside.Unicode
