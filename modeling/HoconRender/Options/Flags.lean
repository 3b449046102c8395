import HoconRender.Options.Flag

/-
One value for every flag.
-/
namespace HoconRender

structure Flags (α : Type) where
  originComments : α
  comments : α
  formatted : α
  json : α
  showEnvVariableValues : α
deriving DecidableEq, Repr

namespace Flags

variable {α : Type}

def ofFn (value : Flag → α) : Flags α :=
  ⟨value .originComments, value .comments, value .formatted, value .json,
    value .showEnvVariableValues⟩

def get (flags : Flags α) : Flag → α
  | .originComments => flags.originComments
  | .comments => flags.comments
  | .formatted => flags.formatted
  | .json => flags.json
  | .showEnvVariableValues => flags.showEnvVariableValues

def set (flags : Flags α) (flag : Flag) (value : α) : Flags α :=
  ofFn fun other => if other = flag then value else flags.get other

@[simp] theorem get_ofFn (value : Flag → α) (flag : Flag) : (ofFn value).get flag = value flag := by
  cases flag <;> rfl

theorem get_set (flags : Flags α) (flag other : Flag) (value : α) :
    (flags.set flag value).get other = if other = flag then value else flags.get other := by
  simp [set]

theorem ext_get {a b : Flags α} (same : ∀ flag, a.get flag = b.get flag) : a = b := by
  cases a; cases b
  have h1 := same .originComments
  have h2 := same .comments
  have h3 := same .formatted
  have h4 := same .json
  have h5 := same .showEnvVariableValues
  simp_all [get]

end Flags
end HoconRender
