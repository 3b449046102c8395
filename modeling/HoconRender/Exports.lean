import HoconRender.Text.Quoted

/-
What the library offers by name: texts about itself, the list of its public names, and its kinds
of values with the kinds that they extend.
-/
namespace HoconRender

inductive Export where
  | text (value : Text)
  | names (values : List Text)
  | kind (name : Text) (lineage : List Text)
deriving DecidableEq, Repr

namespace Export

def version : Text := "1.0.0"
def summary : Text := "Render options for HOCON and JSON configuration output"
def package : Text := "hoconkit"

def kinds : List (Text × List Text) := [
  ("ConfigRenderOptions", ["ConfigRenderOptions"]),
  ("RenderFlag", ["RenderFlag"]),
  ("HoconKitError", ["HoconKitError"]),
  ("ValidationError", ["ValidationError", "HoconKitError", "ValueError"]),
  ("ConfigurationError", ["ConfigurationError", "HoconKitError"]),
  ("HoconKitConfig", ["HoconKitConfig"])]

def texts : List (Text × Text) := [
  ("__version__", version),
  ("__description__", summary),
  ("__name__", package),
  ("__package__", package),
  ("__doc__", Text.ofString "hoconkit - " ++ summary ++ Text.ofString ".")]

/-- What a name stands for. The library is itself of a kind, that of modules. -/
def find? (name : Text) : Option Export :=
  if name = Text.ofString "__all__" then some (.names (kinds.map (·.1)))
  else if name = Text.ofString "__class__" then some (.kind "module" [])
  else match texts.lookup name with
    | some value => some (.text value)
    | none => (kinds.lookup name).map (.kind name)

def missingMessage (name : Text) : Text :=
  Text.ofString "module " ++ package.quoted ++ Text.ofString " has no attribute " ++ name.quoted

end Export
end HoconRender
