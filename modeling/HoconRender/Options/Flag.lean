import HoconRender.Text

/-
The switches of a rendering, in the order in which summaries name them. Each has a display name
and a field name; either one names it.
-/
namespace HoconRender

inductive Flag where
  | originComments | comments | formatted | json | showEnvVariableValues
deriving DecidableEq, Repr

namespace Flag

def all : List Flag := [.originComments, .comments, .formatted, .json, .showEnvVariableValues]

theorem mem_all (flag : Flag) : flag ∈ all := by cases flag <;> decide

def displayName : Flag → Text
  | .originComments => "originComments"
  | .comments => "comments"
  | .formatted => "formatted"
  | .json => "json"
  | .showEnvVariableValues => "showEnvVariableValues"

def fieldName : Flag → Text
  | .originComments => "origin_comments"
  | .comments => "comments"
  | .formatted => "formatted"
  | .json => "json"
  | .showEnvVariableValues => "show_env_variable_values"

def memberName : Flag → Text
  | .originComments => "ORIGIN_COMMENTS"
  | .comments => "COMMENTS"
  | .formatted => "FORMATTED"
  | .json => "JSON"
  | .showEnvVariableValues => "SHOW_ENV_VARIABLE_VALUES"

def hyphenated : Flag → Text
  | .originComments => "origin-comments"
  | .comments => "comments"
  | .formatted => "formatted"
  | .json => "json"
  | .showEnvVariableValues => "show-env-variable-values"

def option (flag : Flag) : Text := Text.ofString "--" ++ flag.hyphenated

/-- The flag that a name stands for under either of its spellings. -/
def ofName? (name : Text) : Option Flag :=
  all.find? fun flag => flag.displayName == name || flag.fieldName == name

theorem ofName?_displayName (flag : Flag) : ofName? flag.displayName = some flag := by
  cases flag <;> decide

theorem ofName?_fieldName (flag : Flag) : ofName? flag.fieldName = some flag := by
  cases flag <;> decide

end Flag
end HoconRender
