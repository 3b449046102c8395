import HoconRender.Options

/-
Render options whose flags are not checked: each may hold any value. Its truth is what it switches,
and it is shown as it was given. Options that are read or loaded hold truth values only.
-/
namespace HoconRender

structure RawOptions where
  flags : Flags Json
  commentPrefix : Text
deriving DecidableEq

namespace RawOptions

def ofOptions (options : RenderOptions) : RawOptions :=
  ⟨.ofFn fun flag => .bool (options.get flag), options.commentPrefix⟩

def get (options : RawOptions) (flag : Flag) : Json := options.flags.get flag

def set (options : RawOptions) (flag : Flag) (value : Bool) : RawOptions :=
  { options with flags := options.flags.set flag (.bool value) }

/-- Options are alike when their fields are; a flag that holds one is like a flag that is on. -/
def alike (a b : RawOptions) : Bool :=
  Flag.all.all (fun flag => (a.get flag).alike (b.get flag)) && a.commentPrefix == b.commentPrefix

def toMembers (options : RawOptions) : Members :=
  Flag.all.map (fun flag => (flag.fieldName, options.get flag))
    ++ [(Text.ofString "comment_prefix", .str options.commentPrefix)]

def toMapping (options : RawOptions) : Mapping :=
  options.toMembers.map fun (name, value) => (⟨.text name⟩, value)

def enabled (options : RawOptions) : List Flag :=
  Flag.all.filter fun flag => (options.get flag).truthy

def strictness (options : RawOptions) : Json :=
  if (options.get .json).truthy then
    .bool (!(options.get .comments).truthy && !(options.get .originComments).truthy)
  else options.get .json

def summary (options : RawOptions) : Text := RenderOptions.summaryOf options.enabled

def shown (options : RawOptions) : Text := RenderOptions.shownFields options.toMembers

@[simp] theorem get_ofOptions (options : RenderOptions) (flag : Flag) :
    (ofOptions options).get flag = .bool (options.get flag) := by
  simp [ofOptions, get]

theorem set_ofOptions (options : RenderOptions) (flag : Flag) (value : Bool) :
    (ofOptions options).set flag value = ofOptions (options.set flag value) := by
  simp only [ofOptions, set, RenderOptions.set, RenderOptions.get, mk.injEq, and_true]
  apply Flags.ext_get
  intro other
  simp only [Flags.get_set, Flags.get_ofFn]
  split <;> rfl

theorem toMembers_ofOptions (options : RenderOptions) :
    (ofOptions options).toMembers = options.toMembers := by
  simp only [toMembers, RenderOptions.toMembers, get_ofOptions]
  simp [ofOptions]

theorem summary_ofOptions (options : RenderOptions) :
    (ofOptions options).summary = options.summary := by
  simp [summary, RenderOptions.summary, enabled, RenderOptions.enabled, Json.truthy]

theorem strictness_ofOptions (options : RenderOptions) :
    (ofOptions options).strictness = .bool options.isStrictJson := by
  cases on : options.get .json <;>
    simp [strictness, RenderOptions.isStrictJson, Json.truthy, on]

end RawOptions
end HoconRender
