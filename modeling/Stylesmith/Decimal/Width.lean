set_option autoImplicit false

namespace Stylesmith

def beyond31 : Nat := 0x80000000

def beyond32 : Nat := 0x100000000

/-- The first number beyond 63 bits: integers of 64 bits with a sign are below it, and not below its
opposite. -/
def beyond63 : Nat := 0x8000000000000000

def beyond64 : Nat := 0x10000000000000000

end Stylesmith
