import MediaProxy.Proofs.Config.Document
import MediaProxy.Reference

/-!
This module contains what is read of the documents that are written: the configuration and the reference
that they were written for.
-/

namespace MediaProxy

/-!
## Configurations
-/

namespace Config

def settings (config : Config) : List Setting :=
  [.handlerAddress config.handlerAddress, .handlerPort config.handlerPort,
    .maxConnections config.maxConnections, .acquireTimeout config.acquireTimeout,
    .keepaliveInterval config.keepaliveInterval]

theorem json_eq_text (config : Config)
    : config.json = (Json.Document.ofMembers (config.settings.map Setting.entry)).text := by
  rw [Json.Document.text_ofMembers]
  rfl

theorem foldl_settings (config other : Config) : config.settings.foldl Setting.on other = config :=
  rfl

theorem nodup_settings (config : Config) : (config.settings.map Setting.name).Nodup := by
  change ["handler_address", "handler_port", "max_connections", "acquire_timeout_ms",
    "keepalive_interval_ms"].Nodup
  decide

theorem Setting.isValue_ofDatum (setting : Setting) : setting.IsValue (.ofDatum setting.datum) := by
  cases setting with
  | handlerAddress address => exact Json.Tree.string?_ofDatum address
  | handlerPort port => exact Json.Tree.natural?_ofDatum port.toNat
  | maxConnections max => exact Json.Tree.natural?_ofDatum max.toNat
  | acquireTimeout millis => exact Json.Tree.natural?_ofDatum millis.toNat
  | keepaliveInterval millis => exact Json.Tree.natural?_ofDatum millis.toNat

theorem gives_ofMembers (settings : List Setting)
    : Gives (Json.Document.ofMembers (settings.map Setting.entry)).members settings := by
  induction settings with
  | nil => exact .nil
  | cons setting settings ih => exact .setting (Json.Member.name?_ofDatum ..) setting.isValue_ofDatum ih

theorem ofJson_json (config : Config) : ofJson config.json = config.validated := by
  rw [json_eq_text, ofJson_of_gives (gives_ofMembers config.settings) config.nodup_settings, foldl_settings]

end Config

/-!
## References
-/

namespace Reference

section
variable {found : Members} {name text : String}

theorem join?_text (hname : fields.find? (·.name = name) = some ⟨name, .text⟩)
    (hnew : found.lookup name = none)
    : (Json.Member.ofDatum name (.text text)).join? fields found =
        some ((name, .text text) :: found) := by
  have hdatum : (Json.Tree.ofDatum (.text text)).datum? .text = some (.text text) :=
    congrArg (Option.map Datum.text) (Json.Tree.string?_ofDatum text)
  rw [Json.Member.join?_field (Json.Member.name?_ofDatum ..) hname, hnew]
  exact congrArg (Option.map fun datum => (name, datum) :: found) hdatum

end

def entries (reference : Reference) : Members :=
  [("kind", .text reference.kind), ("id", .text reference.id)]

theorem json_eq_text (reference : Reference)
    : reference.json = (Json.Document.ofMembers reference.entries).text := by
  rw [Json.Document.text_ofMembers]
  rfl

theorem joinAll?_entries (reference : Reference)
    : Json.joinAll? fields [] (Json.Document.ofMembers reference.entries).members =
        some reference.entries.reverse := by
  change ((Json.Member.ofDatum "kind" _).join? fields []).bind _ = _
  rw [join?_text rfl rfl, Option.bind_some]
  change ((Json.Member.ofDatum "id" _).join? fields _).bind _ = _
  rw [join?_text rfl rfl]
  rfl

theorem fits_fields : ∀ field ∈ fields, field.type.Fits := by
  decide

theorem ofJson_json (reference : Reference) : ofJson (.ofText reference.json) = .ok reference := by
  have hread := Json.readRecord_document fits_fields true (Json.Document.ofMembers reference.entries)
  rw [joinAll?_entries] at hread
  unfold ofJson
  rw [json_eq_text, eq_ok_of_toOption hread]
  rfl

end Reference

/--
What is promised of everything that is written. A configuration is read as it was written, and held to the
rules. A reference is read as it was written, so that no two are written in the same way.
-/
structure ReadsWritten : Prop where
  config : ∀ config : Config, config.fault? = none → Config.ofJson config.json = .ok config
  fault : ∀ (config : Config) (fault : ConfigFault), config.fault? = some fault →
    Config.ofJson config.json = .error (.config fault.message)
  reference : ∀ reference : Reference, Reference.ofJson (.ofText reference.json) = .ok reference
  injective : Function.Injective Reference.json

theorem readsWritten : ReadsWritten where
  config := by
    intro config hvalid
    rw [Config.ofJson_json]
    unfold Config.validated
    rw [hvalid]
  fault := by
    intro config fault hfault
    rw [Config.ofJson_json]
    unfold Config.validated
    rw [hfault]
  reference := Reference.ofJson_json
  injective := by
    intro a b hjson
    have ha := a.ofJson_json
    rw [hjson, b.ofJson_json] at ha
    exact (Except.ok.inj ha).symm

end MediaProxy
