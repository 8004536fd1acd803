/-!
# The checker's wording

The lines that a checker prints, or the starts of those that go on with a value.
-/

namespace GrowthFault.Wording

def normalBanner : String := "Testing append_str under normal conditions..."

def normalPassed : String := "✓ Normal test passed"

def normalNull : String := "ERROR: append_str returned NULL on normal input"

def normalMismatch : String := "ERROR: Expected 'helloworld'"

def oomBanner : String := "Testing append_str with OOM simulation (if LD_PRELOAD is set)..."

def oomPassed : String := "✓ OOM test passed"

def oomInactive : String := "INFO: OOM simulation not active or realloc succeeded"

def completed : String := "All tests completed."

def calls : String := "shim: realloc calls observed: "

def failAfter : String := "shim: fail-after ordinal: "

end GrowthFault.Wording
