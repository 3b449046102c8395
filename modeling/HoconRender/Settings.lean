import HoconRender.Options

/-
Settings: a preset, explicit switches and a comment prefix, all but the preset optional, and
whether debugging is on.
-/
namespace HoconRender

structure RenderSettings where
  preset : Preset
  switches : Flags (Option Bool)
  commentPrefix : Option Text
deriving DecidableEq, Repr

structure Config where
  render : RenderSettings
  debug : Bool
deriving DecidableEq, Repr

namespace RenderSettings

def unset : RenderSettings := ⟨.defaults, .ofFn fun _ => none, none⟩

def overrides (settings : RenderSettings) : List (Flag × Bool) :=
  Flag.all.filterMap fun flag => (settings.switches.get flag).map fun value => (flag, value)

def toOptions (settings : RenderSettings) : RenderOptions :=
  let options := settings.overrides.foldl (fun options (flag, value) => options.set flag value)
    settings.preset.options
  match settings.commentPrefix with
  | some t => { options with commentPrefix := t }
  | none => options

def switchKey (flag : Flag) : Text := flag.fieldName

def toMembers (settings : RenderSettings) : Members :=
  (Text.ofString "preset", .str settings.preset.name)
    :: settings.overrides.map (fun (flag, value) => (switchKey flag, .bool value))
    ++ (settings.commentPrefix.map fun t => (Text.ofString "comment_prefix", Json.str t)).toList

end RenderSettings

namespace Config

def unset : Config := ⟨.unset, false⟩

def toOptions (config : Config) : RenderOptions := config.render.toOptions

def toMembers (config : Config) : Members :=
  [(Text.ofString "render", .obj config.render.toMembers),
    (Text.ofString "debug", .bool config.debug)]

end Config
end HoconRender
