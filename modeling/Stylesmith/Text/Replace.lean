import Stylesmith.Text.Basic

set_option autoImplicit false

namespace Stylesmith.Text

def occursIn (part : Text) : Text → Bool
  | [] => part.isEmpty
  | c :: t => part.isPrefixOf (c :: t) || occursIn part t

def replaceFirst (part new : Text) : Text → Text
  | [] => if part.isEmpty then new else []
  | c :: t =>
    match afterPrefix? part (c :: t) with
    | some rest => new ++ rest
    | none => c :: replaceFirst part new t

end Stylesmith.Text
