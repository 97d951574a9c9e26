import Stylesmith.Decimal.Binary64

set_option autoImplicit false

namespace Stylesmith.Size

/-- A fraction with two places after the point, a tie going to the even neighbour. -/
def twoPlaces (num den : Nat) : Text :=
  let hundredths := Binary64.roundDiv (100 * num) den
  let places : Text := Nat.repr (hundredths % 100)
  (Nat.repr (hundredths / 100) : Text) ++ '.' :: List.replicate (2 - places.length) '0' ++ places

/-- A number of bytes in the largest unit that is not larger than it. Large numbers are taken with 53
digits in base two. -/
def text (bytes : Nat) : Text :=
  let (num, den) := Binary64.toRatio (Binary64.ofRatio bytes 1)
  if num < 1024 * den then (Nat.repr bytes : Text) ++ (" B" : Text)
  else if num < 1024 * 1024 * den then twoPlaces num (1024 * den) ++ (" KB" : Text)
  else twoPlaces num (1024 * 1024 * den) ++ (" MB" : Text)

end Stylesmith.Size
