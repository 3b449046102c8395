import HoconRender.Proofs.Loading.Layers

/-
A name that the layers spell in several ways. Layers are laid over one another under their keys as
they are spelled, and of the spellings of one name the first is read, whichever layers have it. So
overrides are read under their own spelling or not at all.
-/
namespace HoconRender

def spelling? (name : Text) (keys : List Text) : Option Text :=
  keys.find? fun key => key.lower == name

theorem spelling?_lower {name key : Text} {keys : List Text}
    (first : spelling? name keys = some key) : key.lower = name := by
  simpa using List.find?_some first

theorem spelling?_append (name : Text) (front behind : List Text) :
    spelling? name (front ++ behind) = (spelling? name front).or (spelling? name behind) :=
  List.find?_append

theorem spelling?_keys_put (name : Text) (members : Members) (key : Text) (value : Json) :
    spelling? name (Entries.keys (members.put key value)) =
      spelling? name (Entries.keys members ++ [key]) := by
  by_cases present : key ∈ Entries.keys members
  · rw [Entries.keys_put_present value present, spelling?_append]
    cases first : spelling? name (Entries.keys members) with
    | some other => rfl
    | none =>
      have other : spelling? name [key] = none := by
        unfold spelling? at first ⊢
        rw [List.find?_eq_none] at first ⊢
        intro k member
        rw [List.mem_singleton.mp member]
        exact first key present
      rw [other]
      rfl
  · rw [Entries.keys_put_absent value present]

theorem spelling?_keys_merge (name : Text) (target source : Members) :
    spelling? name (Entries.keys (Json.merge target source)) =
      spelling? name (Entries.keys target ++ Entries.keys source) := by
  induction source generalizing target with
  | nil => simp [Json.merge, Entries.keys]
  | cons entry rest ih =>
    obtain ⟨key, value⟩ := entry
    rw [Json.merge, ih, spelling?_append, spelling?_keys_put, ← spelling?_append]
    simp [Entries.keys]

theorem member?_of_spelling (members : Members) (name : Text) :
    Config.member? members name =
      (spelling? name (Entries.keys members)).bind (Entries.get? members) := by
  induction members with
  | nil => rfl
  | cons entry rest ih =>
    obtain ⟨key, value⟩ := entry
    by_cases same : key.lower = name
    · simp [Config.member?, spelling?, Entries.keys, Entries.get?, same]
    · have behind : Config.member? ((key, value) :: rest) name = Config.member? rest name := by
        simp [Config.member?, same]
      have later : spelling? name (Entries.keys ((key, value) :: rest)) =
          spelling? name (Entries.keys rest) := by
        simp [spelling?, Entries.keys, same]
      rw [behind, later, ih]
      cases first : spelling? name (Entries.keys rest) with
      | none => rfl
      | some other =>
        have apart : key ≠ other := by
          rintro rfl
          exact same (spelling?_lower first)
        simp [Entries.get?, apart]

namespace Layers

def fileSpelling? (layers : Layers) (name : Text) : Option Text :=
  spelling? name (Entries.keys layers.user ++ Entries.keys layers.chosen)

/-- The spelling under which a name is read. -/
def readSpelling? (layers : Layers) (name : Text) : Option Text :=
  (layers.fileSpelling? name).or (spelling? name (Entries.keys layers.overrides))

theorem readSpelling?_lower {layers : Layers} {name key : Text}
    (first : layers.readSpelling? name = some key) : key.lower = name := by
  rcases Option.or_eq_some_iff.mp first with file | ⟨_, own⟩
  · exact spelling?_lower file
  · exact spelling?_lower own

def Unread (layers : Layers) (name : Text) : Prop :=
  ∀ key, layers.readSpelling? name = some key → key ∉ Entries.keys layers.overrides

def under (layers : Layers) (overrides : Members) : Layers := { layers with overrides := overrides }

variable {world : World} {request : Request} {layers : Layers}

theorem fileSpelling?_of_exactly {name : Text} (exactly : layers.SpellExactly name) (other : Text)
    (first : layers.fileSpelling? name = some other) : other = name := by
  rcases List.mem_append.mp (List.mem_of_find?_eq_some first) with user | chosen
  · exact exactly layers.user (by simp [objects]) other user (spelling?_lower first)
  · exact exactly layers.chosen (by simp [objects]) other chosen (spelling?_lower first)

theorem spellExactly_of_files (read : layers.Of world request) (alone : request.overrides = [])
    {name : Text}
    (exactly : ∀ members, UserLayer world members ∨ ChosenLayer world request members →
      ∀ key ∈ Entries.keys members, key.lower = name → key = name) :
    layers.SpellExactly name := by
  intro members member key inside lower
  simp only [objects, read.overrides, alone, List.mem_cons, List.not_mem_nil, or_false] at member
  rcases member with rfl | rfl | rfl
  · cases inside
  · exact exactly layers.chosen (Or.inr read.chosen) key inside lower
  · exact exactly layers.user (Or.inl read.user) key inside lower

theorem under_of (read : layers.Of world request) {overrides : Members}
    (distinct : (Json.obj overrides).Distinct) :
    (layers.under overrides).Of world { request with overrides := overrides } where
  overrides := rfl
  distinct := distinct
  chosen := by
    cases read.chosen with
    | named named yields => exact ChosenLayer.named named yields
    | inDirectory unnamed chosen yields => exact ChosenLayer.inDirectory unnamed chosen yields
    | inCurrent unnamed unchosen known yields =>
      exact ChosenLayer.inCurrent unnamed unchosen known yields
  user := read.user
  render := read.render
  debug := read.debug

theorem bare_of (read : layers.Of world request) :
    (layers.under []).Of world { request with overrides := [] } :=
  under_of read Json.distinct_empty

theorem member?_read (read : layers.Of world request) (name : Text) :
    Config.member? (gathered layers.user layers.chosen layers.overrides) name =
      (layers.readSpelling? name).bind fun key => Json.combined (layers.given key) := by
  have spelling : spelling? name (Entries.keys (gathered layers.user layers.chosen layers.overrides))
      = layers.readSpelling? name := by
    unfold gathered readSpelling? fileSpelling?
    rw [spelling?_keys_merge, spelling?_append, spelling?_keys_merge, spelling?_append,
      spelling?_keys_merge, spelling?_append name (Entries.keys layers.user)]
    rfl
  rw [member?_of_spelling, spelling]
  congr 1
  funext key
  exact get?_gathered read key

theorem readSpelling?_unread {name : Text} (unread : layers.Unread name) :
    layers.readSpelling? name = layers.fileSpelling? name := by
  unfold Unread readSpelling? at unread
  unfold readSpelling?
  cases first : layers.fileSpelling? name with
  | some key => rfl
  | none =>
    rw [first] at unread
    cases own : spelling? name (Entries.keys layers.overrides) with
    | none => rfl
    | some key => exact absurd (List.mem_of_find?_eq_some own) (unread key own)

theorem member?_unread (read : layers.Of world request) {name : Text}
    (unread : layers.Unread name) :
    Config.member? (gathered layers.user layers.chosen layers.overrides) name =
      Config.member? (gathered layers.user layers.chosen []) name := by
  have spelling : layers.readSpelling? name = (layers.under []).readSpelling? name :=
    (readSpelling?_unread unread).trans Option.or_none.symm
  have bare := member?_read (bare_of read) name
  change Config.member? (gathered layers.user layers.chosen []) name = _ at bare
  rw [member?_read read, bare, ← spelling]
  cases first : layers.readSpelling? name with
  | none => rfl
  | some key =>
    have absent := (Entries.get?_eq_none_iff ..).mpr (unread key first)
    simp [given, objects, under, absent, Entries.get?]

theorem load_unread (read : layers.Of world request) (render : layers.Unread "render")
    (debug : layers.Unread "debug") :
    (load world request).result = (load world { request with overrides := [] }).result := by
  rw [load_result read.user read.chosen, load_result (bare_of read).user (bare_of read).chosen,
    ← read.overrides]
  unfold buildConfig Config.build
  rw [member?_unread read render, member?_unread read debug]
  rfl

section RenderOnly

theorem unread_render (only : ∀ key ∈ Entries.keys layers.overrides, key = Text.ofString "render")
    {other : Text} (first : layers.fileSpelling? "render" = some other)
    (apart : other ≠ Text.ofString "render") : layers.Unread "render" := by
  intro key found member
  rw [readSpelling?, first] at found
  cases found
  exact apart (only other member)

theorem unread_debug (only : ∀ key ∈ Entries.keys layers.overrides, key = Text.ofString "render") :
    layers.Unread "debug" := by
  intro key found member
  have lower := readSpelling?_lower found
  rw [only key member] at lower
  exact absurd lower (by decide)

variable {own : Members}

theorem value?_overridden (overrides : layers.overrides = [(Text.ofString "render", .obj own)])
    (key : Text) :
    layers.value? key = (Entries.get? own key).or ((layers.under []).value? key) := by
  have stack : layers.stack = own :: (layers.under []).stack := by
    unfold stack given objects
    rw [overrides]
    rfl
  unfold value?
  rw [stack, List.findSome?_cons]
  cases Entries.get? own key <;> rfl

/-- Overrides of the render settings that are read are the top of what is in sight. -/
theorem load_overridden_iff (read : layers.Of world request)
    (overrides : layers.overrides = [(Text.ofString "render", .obj own)])
    (first : ∀ other, layers.fileSpelling? "render" = some other → other = Text.ofString "render")
    (config : Config) :
    (load world request).result = .ok config ↔
      RenderSettings.Settles (fun field => field.value? fun key =>
        (Entries.get? own key).or ((layers.under []).value? key)) config.render ∧
      Config.debugOf (Config.layered layers.debug
        (Config.member? (gathered layers.user layers.chosen []) "debug")) = .ok config.debug := by
  have only : ∀ key ∈ Entries.keys layers.overrides, key = Text.ofString "render" := by
    simp [overrides, Entries.keys]
  have spelling : layers.readSpelling? "render" = some (Text.ofString "render") := by
    unfold readSpelling?
    rw [overrides]
    cases file : layers.fileSpelling? "render" with
    | none => exact (by decide : spelling? "render" ["render"] = some (Text.ofString "render"))
    | some other => exact congrArg some (first other file)
  have found := member?_read read "render"
  rw [spelling] at found
  have top : layers.highest? "render" layers.render = some (.obj own) := by
    unfold highest? given objects
    rw [overrides]
    rfl
  have values : layers.value? = fun key => (Entries.get? own key).or ((layers.under []).value? key) :=
    funext (value?_overridden overrides)
  rw [load_ok_iff_values read, Config.ofValues_ok_iff, renderOf_ok_iff_sight read found, top,
    values, member?_unread read (unread_debug only)]
  simp [Json.isObject]

end RenderOnly

end Layers
end HoconRender
