import TwoPhase.Split

/-
White space as Unicode has it, and trimming it from both ends of a text.
-/
namespace TwoPhase

def isBlank (c : Char) : Bool :=
  let n := c.toNat
  (0x09 ≤ n && n ≤ 0x0d) || n = 0x20 || n = 0x85 || n = 0xa0 || n = 0x1680 ||
    (0x2000 ≤ n && n ≤ 0x200a) || n = 0x2028 || n = 0x2029 || n = 0x202f || n = 0x205f || n = 0x3000

def trimBlank (text : List Char) : List Char := trimWhere isBlank text

end TwoPhase
