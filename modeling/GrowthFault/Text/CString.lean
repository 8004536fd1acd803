import GrowthFault.Text.Utf8

/-!
# Terminated strings

In memory a string ends at its first NUL, so only byte strings without one can be stored.
-/

namespace GrowthFault

structure CString where
  bytes : Bytes
  nul_free : (0 : UInt8) ∉ bytes
  deriving DecidableEq

namespace CString

/-- The string with these bytes, if none of them is NUL. -/
def ofBytes? (bytes : Bytes) : Option CString :=
  if h : (0 : UInt8) ∈ bytes then none else some ⟨bytes, h⟩

def length (s : CString) : Nat := s.bytes.length

def terminated (s : CString) : Bytes := s.bytes ++ [0]

@[simp] theorem length_terminated (s : CString) : s.terminated.length = s.length + 1 := by
  simp [terminated, length]

end CString

end GrowthFault
