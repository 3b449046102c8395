import HoconRender.Json.Key
import HoconRender.Options.Flags
import HoconRender.Options.Rejection

/-
Render options: five switches and the token that starts comment lines. They start from a preset
and are changed one field at a time, or are read from a mapping.
-/
namespace HoconRender

structure RenderOptions where
  flags : Flags Bool
  commentPrefix : Text
deriving DecidableEq, Repr

inductive Preset where
  | defaults | concise
deriving DecidableEq, Repr

namespace RenderOptions

def get (options : RenderOptions) (flag : Flag) : Bool := options.flags.get flag

def set (options : RenderOptions) (flag : Flag) (value : Bool) : RenderOptions :=
  { options with flags := options.flags.set flag value }

def defaultCommentPrefix : Text := "#"

end RenderOptions

namespace Preset

def all : List Preset := [.defaults, .concise]

def name : Preset → Text
  | .defaults => "defaults"
  | .concise => "concise"

def ofName? (name : Text) : Option Preset := all.find? fun preset => preset.name == name

def ofJson (value : Json) : Except Rejection Preset :=
  match value with
  | .str name => (ofName? name).elim (.error (.unknownPreset value)) .ok
  | _ => .error (.unknownPreset value)

def options : Preset → RenderOptions
  | .defaults => ⟨⟨true, true, true, true, true⟩, RenderOptions.defaultCommentPrefix⟩
  | .concise => ⟨⟨false, false, false, true, true⟩, RenderOptions.defaultCommentPrefix⟩

end Preset

namespace RenderOptions

def commentPrefixOf : Json → Except Rejection Text
  | .str t => .ok t
  | .null => .error .noCommentPrefix
  | value => .error (.commentPrefixNotText value)

def setCommentPrefix (options : RenderOptions) (value : Json) : Except Rejection RenderOptions :=
  (commentPrefixOf value).map fun t => { options with commentPrefix := t }

/-- The flag that a key names, or that it is. -/
def flagOf (key : Key) : Except ReadingFault Flag :=
  match key with
  | .flag chosen => .ok chosen
  | .text name => (Flag.ofName? name).elim (.error (.unknownFlag key.shown key.fault?)) .ok
  | _ => .error (.unknownFlag key.shown key.fault?)

def flagNamed (name : Json) : Except ReadingFault Flag :=
  match Key.ofJson? name with
  | some key => flagOf key
  | none => .error (.unknownFlag name.shown name.fault?)

def isCommentPrefixKey (key : Key) : Bool :=
  key == .text (Text.ofString "comment_prefix") || key == .text (Text.ofString "commentPrefix")

/-- Applies one entry of a mapping. Flags take truth values only. -/
def applyEntry (options : RenderOptions) (entry : MappingKey × Json) :
    Except ReadingFault RenderOptions :=
  if isCommentPrefixKey entry.1.key then (options.setCommentPrefix entry.2).mapError .rejected
  else do
    let flag ← flagOf entry.1.key
    match entry.2 with
    | .bool value => .ok (options.set flag value)
    | value => .error (.rejected (.notBool flag value))

/-- Options read from a mapping: its preset comes first, wherever it stands, and then every other
entry in order. -/
def ofMapping (mapping : Mapping) : Except ReadingFault RenderOptions := do
  let preset ← (Preset.ofJson ((mapping.get? "preset").getD "defaults")).mapError .rejected
  (mapping.erase "preset").foldlM applyEntry preset.options

def toMembers (options : RenderOptions) : Members :=
  Flag.all.map (fun flag => (flag.fieldName, .bool (options.get flag)))
    ++ [(Text.ofString "comment_prefix", .str options.commentPrefix)]

def toMapping (options : RenderOptions) : Mapping :=
  options.toMembers.map fun (name, value) => (⟨.text name⟩, value)

def enabled (options : RenderOptions) : List Flag := Flag.all.filter options.get

def isStrictJson (options : RenderOptions) : Bool :=
  options.get .json && !options.get .comments && !options.get .originComments

def summaryOf (enabled : List Flag) : Text :=
  Text.ofString "ConfigRenderOptions("
    ++ Text.join (Text.ofString ",") (enabled.map Flag.displayName) ++ Text.ofString ")"

def shownFields (fields : Members) : Text :=
  Text.ofString "ConfigRenderOptions("
    ++ Text.join (Text.ofString ", ")
      (fields.map fun (name, value) => name ++ Text.ofString "=" ++ value.shown)
    ++ Text.ofString ")"

def summary (options : RenderOptions) : Text := summaryOf options.enabled

def shown (options : RenderOptions) : Text := shownFields options.toMembers

theorem ext_fields {a b : RenderOptions} (flags : ∀ flag, a.get flag = b.get flag)
    (commentPrefix : a.commentPrefix = b.commentPrefix) : a = b := by
  have same : a.flags = b.flags := Flags.ext_get flags
  cases a; cases b
  simp_all

theorem get_set (options : RenderOptions) (flag other : Flag) (value : Bool) :
    (options.set flag value).get other = if other = flag then value else options.get other :=
  Flags.get_set options.flags flag other value

theorem set_get (options : RenderOptions) (flag : Flag) :
    options.set flag (options.get flag) = options := by
  apply ext_fields
  · intro other
    rw [get_set]
    split
    · rename_i same
      rw [same]
    · rfl
  · rfl

theorem get?_toMembers_flag (options : RenderOptions) (flag : Flag) :
    Entries.get? options.toMembers flag.fieldName = some (.bool (options.get flag)) := by
  cases flag <;> rfl

theorem get?_toMembers_commentPrefix (options : RenderOptions) :
    Entries.get? options.toMembers "comment_prefix" = some (.str options.commentPrefix) := by rfl

theorem ofMapping_toMapping (options : RenderOptions) :
    ofMapping options.toMapping = .ok options := by rfl

end RenderOptions
end HoconRender
