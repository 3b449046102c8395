import HoconRender.Json.Shown
import HoconRender.Options.Flag

/-
Why render options cannot be had: a value for them is refused, or what is wrong with it cannot be
put into words.
-/
namespace HoconRender

inductive Rejection where
  | unknownFlag (shown : Text)
  | unknownPreset (name : Json)
  | notBool (flag : Flag) (value : Json)
  | noCommentPrefix
  | commentPrefixNotText (value : Json)
deriving DecidableEq

namespace Rejection

def field : Rejection → Text
  | .unknownFlag _ => "flag"
  | .unknownPreset _ => "preset"
  | .notBool flag _ => flag.fieldName
  | .noCommentPrefix => "comment_prefix"
  | .commentPrefixNotText _ => "comment_prefix"

def reason : Rejection → Text
  | .unknownFlag shown => Text.ofString "Unknown render flag: " ++ shown
  | .unknownPreset _ => "Unknown preset, expected one of: defaults, concise"
  | .notBool _ value => Text.ofString "Expected a boolean, got " ++ value.kindName
  | .noCommentPrefix => "Comment prefix cannot be None"
  | .commentPrefixNotText value =>
    Text.ofString "Comment prefix must be a string, got " ++ value.kindName

end Rejection

inductive ReadingFault where
  | rejected (rejection : Rejection)
  | unspoken (message : Text)
deriving DecidableEq

namespace ReadingFault

/-- The refusal of a name quotes it. -/
def unknownFlag (shown : Text) (fault? : Option Text) : ReadingFault :=
  match fault? with
  | none => .rejected (.unknownFlag shown)
  | some message => .unspoken message

def message : ReadingFault → Text
  | .rejected rejection => rejection.reason
  | .unspoken message => message

end ReadingFault
end HoconRender
