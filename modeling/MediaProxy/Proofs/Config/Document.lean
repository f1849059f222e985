import MediaProxy.Config
import MediaProxy.Proofs.Json.Compact
import MediaProxy.Proofs.Json.Record

/-!
This module contains what a JSON document makes of a configuration. Each member that is a field overwrites
the default of this field, and members that are no fields do not matter, whatever they are. A document that
gives a field twice, or a value that the field cannot have, is refused as a whole.
-/

namespace MediaProxy.Config

inductive Setting where
  | handlerAddress (address : String)
  | handlerPort (port : UInt16)
  | maxConnections (max : UInt64)
  | acquireTimeout (millis : UInt64)
  | keepaliveInterval (millis : UInt64)
  deriving DecidableEq, Repr

namespace Setting

def name : Setting → String
  | handlerAddress _ => "handler_address"
  | handlerPort _ => "handler_port"
  | maxConnections _ => "max_connections"
  | acquireTimeout _ => "acquire_timeout_ms"
  | keepaliveInterval _ => "keepalive_interval_ms"

def on (config : Config) : Setting → Config
  | handlerAddress address => { config with handlerAddress := address }
  | handlerPort port => { config with handlerPort := port }
  | maxConnections max => { config with maxConnections := max }
  | acquireTimeout millis => { config with acquireTimeout := millis }
  | keepaliveInterval millis => { config with keepaliveInterval := millis }

def IsValue (value : Json.Tree) : Setting → Prop
  | handlerAddress address => value.string? = some address
  | handlerPort port => value.natural? = some port.toNat
  | maxConnections max => value.natural? = some max.toNat
  | acquireTimeout millis => value.natural? = some millis.toNat
  | keepaliveInterval millis => value.natural? = some millis.toNat

def datum : Setting → Datum
  | handlerAddress address => .text address
  | handlerPort port => .natural port.toNat
  | maxConnections max => .natural max.toNat
  | acquireTimeout millis => .natural millis.toNat
  | keepaliveInterval millis => .natural millis.toNat

def entry (setting : Setting) : String × Datum :=
  (setting.name, setting.datum)

def type : Setting → FieldType
  | handlerAddress _ => .text
  | handlerPort _ => .natural UInt16.size
  | maxConnections _ => .natural UInt64.size
  | acquireTimeout _ => .natural UInt64.size
  | keepaliveInterval _ => .natural UInt64.size

end Setting

inductive Gives : List (Json.Member Json.Tree) → List Setting → Prop
  | nil : Gives [] []
  | other {member : Json.Member Json.Tree} {name : String} (hname : member.name? = some name)
      (hother : name ∉ fields.map (·.name)) (h : Gives members settings)
      : Gives (member :: members) settings
  | setting {member : Json.Member Json.Tree} {setting : Setting}
      (hname : member.name? = some setting.name) (hvalue : setting.IsValue member.value)
      (h : Gives members settings)
      : Gives (member :: members) (setting :: settings)

section
variable {found found' : Members} {member : Json.Member Json.Tree}
  {members : List (Json.Member Json.Tree)} {settings : List Setting}

/-!
## Fields
-/

theorem fits_fields : ∀ field ∈ fields, field.type.Fits := by
  decide

theorem find?_name (setting : Setting)
    : fields.find? (·.name = setting.name) = some ⟨setting.name, setting.type⟩ := by
  cases setting <;> rfl

theorem natural_datum?_eq_some_iff {value : Json.Tree} {bound n : Nat} (h : n < bound)
    : value.datum? (.natural bound) = some (.natural n) ↔ value.natural? = some n := by
  simp [Json.Tree.datum?, Option.filter_eq_some_iff, h]

theorem Setting.datum?_eq_some_iff (setting : Setting) (value : Json.Tree)
    : value.datum? setting.type = some setting.datum ↔ setting.IsValue value := by
  cases setting with
  | handlerAddress address => simp [Json.Tree.datum?, type, datum, IsValue]
  | handlerPort port => exact natural_datum?_eq_some_iff port.toNat_lt
  | maxConnections max => exact natural_datum?_eq_some_iff max.toNat_lt
  | acquireTimeout millis => exact natural_datum?_eq_some_iff millis.toNat_lt
  | keepaliveInterval millis => exact natural_datum?_eq_some_iff millis.toNat_lt

theorem exists_natural {value : Json.Tree} {bound : Nat} {datum : Datum}
    (h : value.datum? (.natural bound) = some datum) : ∃ n, n < bound ∧ .natural n = datum := by
  obtain ⟨n, hn, rfl⟩ := Option.map_eq_some_iff.1 h
  exact ⟨n, of_decide_eq_true (Option.filter_eq_some_iff.1 hn).2, rfl⟩

theorem exists_setting {field : Field} (h : field ∈ fields) {value : Json.Tree} {datum : Datum}
    (hdatum : value.datum? field.type = some datum)
    : ∃ setting : Setting, setting.name = field.name ∧ setting.type = field.type ∧
        setting.datum = datum := by
  simp only [fields, List.mem_cons, List.not_mem_nil, or_false] at h
  obtain rfl | rfl | rfl | rfl | rfl := h
  . obtain ⟨address, -, rfl⟩ := Option.map_eq_some_iff.1 hdatum
    exact ⟨.handlerAddress address, rfl, rfl, rfl⟩
  . obtain ⟨n, hlt, rfl⟩ := exists_natural hdatum
    exact ⟨.handlerPort (UInt16.ofNat n), rfl, rfl,
      congrArg Datum.natural (UInt16.toNat_ofNat_of_lt hlt)⟩
  . obtain ⟨n, hlt, rfl⟩ := exists_natural hdatum
    exact ⟨.maxConnections (UInt64.ofNat n), rfl, rfl,
      congrArg Datum.natural (UInt64.toNat_ofNat_of_lt hlt)⟩
  . obtain ⟨n, hlt, rfl⟩ := exists_natural hdatum
    exact ⟨.acquireTimeout (UInt64.ofNat n), rfl, rfl,
      congrArg Datum.natural (UInt64.toNat_ofNat_of_lt hlt)⟩
  . obtain ⟨n, hlt, rfl⟩ := exists_natural hdatum
    exact ⟨.keepaliveInterval (UInt64.ofNat n), rfl, rfl,
      congrArg Datum.natural (UInt64.toNat_ofNat_of_lt hlt)⟩

/-!
## Members
-/

theorem join?_other {name : String} (hname : member.name? = some name)
    (hother : name ∉ fields.map (·.name)) : member.join? fields found = some found := by
  have hfind : fields.find? (·.name = name) = none := by
    rw [List.find?_eq_none]
    intro field hfield heq
    exact hother (List.mem_map.2 ⟨field, hfield, of_decide_eq_true heq⟩)
  exact Json.Member.join?_other hname hfind

theorem join?_setting {setting : Setting} (hname : member.name? = some setting.name)
    (hvalue : setting.IsValue member.value)
    : member.join? fields found =
        if (found.lookup setting.name).isSome then none
        else some (setting.entry :: found) := by
  rw [Json.Member.join?_field hname (find?_name setting)]
  dsimp only
  rw [(setting.datum?_eq_some_iff member.value).2 hvalue]
  rfl

theorem join?_cases (h : member.join? fields found = some found')
    : (∃ name, member.name? = some name ∧ name ∉ fields.map (·.name) ∧ found' = found) ∨
      (∃ setting : Setting, member.name? = some setting.name ∧ setting.IsValue member.value ∧
        found.lookup setting.name = none ∧ found' = setting.entry :: found) := by
  unfold Json.Member.join? at h
  obtain ⟨name, hname, h⟩ := Option.bind_eq_some_iff.1 h
  split at h
  . rename_i hfind
    cases h
    refine .inl ⟨name, hname, ?_, rfl⟩
    intro hmem
    obtain ⟨field, hfield, heq⟩ := List.mem_map.1 hmem
    exact List.find?_eq_none.1 hfind field hfield (decide_eq_true heq)
  . rename_i field hfind
    have hfieldName := List.find?_some hfind
    simp only [decide_eq_true_eq] at hfieldName
    split at h
    . cases h
    . rename_i hnew
      obtain ⟨datum, hdatum, rfl⟩ := Option.map_eq_some_iff.1 h
      obtain ⟨setting, hsetting, htype, rfl⟩ :=
        exists_setting (List.mem_of_find?_eq_some hfind) hdatum
      obtain rfl := hsetting.trans hfieldName
      rw [← htype, setting.datum?_eq_some_iff] at hdatum
      exact .inr ⟨setting, hname, hdatum, Option.not_isSome_iff_eq_none.1 hnew, rfl⟩

/-!
## Objects
-/

def foundOf (settings : List Setting) : Members :=
  (settings.map Setting.entry).reverse

theorem foundOf_cons (setting : Setting) (settings : List Setting) (found : Members)
    : foundOf (setting :: settings) ++ found =
        foundOf settings ++ setting.entry :: found := by
  simp [foundOf]

theorem lookup_cons_eq_none {setting : Setting} {name : String}
    : List.lookup name (setting.entry :: found) = none ↔
        setting.name ≠ name ∧ found.lookup name = none := by
  unfold Setting.entry
  by_cases hname : name = setting.name
  . simp [hname]
  . rw [List.lookup_cons, beq_false_of_ne hname]
    exact (and_iff_right (Ne.symm hname)).symm

theorem Gives.joinAll? (h : Gives members settings) (hnodup : (settings.map Setting.name).Nodup)
    (hnew : ∀ setting ∈ settings, found.lookup setting.name = none)
    : Json.joinAll? fields found members = some (foundOf settings ++ found) := by
  induction h generalizing found with
  | nil => rfl
  | other hname hother h ih =>
    unfold Json.joinAll?
    rw [join?_other hname hother]
    exact ih hnodup hnew
  | @setting _ settings _ setting hname hvalue h ih =>
    obtain ⟨hfresh, hnodup⟩ := List.nodup_cons.1 hnodup
    obtain ⟨hlookup, hnew⟩ := List.forall_mem_cons.1 hnew
    unfold Json.joinAll?
    rw [join?_setting hname hvalue, hlookup, foundOf_cons]
    -- The settings that follow are new beside this one, too, since their fields are others.
    refine ih hnodup ?_
    intro other hother
    refine lookup_cons_eq_none.2 ⟨?_, hnew other hother⟩
    intro heq
    exact hfresh (heq ▸ List.mem_map_of_mem hother)

theorem exists_gives (h : Json.joinAll? fields found members = some found')
    : ∃ settings, Gives members settings ∧ (settings.map Setting.name).Nodup ∧
        ∀ setting ∈ settings, found.lookup setting.name = none := by
  induction members generalizing found with
  | nil => exact ⟨[], .nil, .nil, nofun⟩
  | cons member members ih =>
    obtain ⟨found₁, hjoin, h⟩ := Option.bind_eq_some_iff.1 h
    obtain ⟨settings, hgives, hnodup, hnew⟩ := ih h
    obtain ⟨name, hname, hother, rfl⟩ | ⟨setting, hname, hvalue, hlookup, rfl⟩ := join?_cases hjoin
    . exact ⟨settings, .other hname hother hgives, hnodup, hnew⟩
    . refine ⟨setting :: settings, .setting hname hvalue hgives, ?_, ?_⟩
      . refine List.nodup_cons.2 ⟨?_, hnodup⟩
        intro hmem
        obtain ⟨other, hother, heq⟩ := List.mem_map.1 hmem
        exact (lookup_cons_eq_none.1 (hnew other hother)).1 heq.symm
      . refine List.forall_mem_cons.2 ⟨hlookup, ?_⟩
        intro other hother
        exact (lookup_cons_eq_none.1 (hnew other hother)).2

/-!
## Documents
-/

theorem ofMembers_cons (setting : Setting) (found : Members)
    : ofMembers (setting.entry :: found) = setting.on (ofMembers found) := by
  cases setting <;> simp [ofMembers, Setting.entry, Setting.name, Setting.datum, Setting.on,
    Members.text?, Members.natural?, Datum.text?, Datum.natural?, List.lookup_cons]

theorem ofMembers_foundOf (settings : List Setting)
    : ofMembers (foundOf settings) = settings.foldl Setting.on {} := by
  unfold foundOf
  rw [← List.map_reverse, ← List.foldr_reverse]
  induction settings.reverse with
  | nil => rfl
  | cons setting settings ih =>
    rw [List.map_cons, ofMembers_cons, ih]
    rfl

theorem ofJson_document (text : Json.Document)
    : ofJson text.text =
        match Json.joinAll? fields [] text.members with
        | none => .error (.config "Invalid JSON")
        | some found => (ofMembers found).validated := by
  have hread := Json.readRecord_document fits_fields false text
  unfold ofJson
  cases hjoin : Json.joinAll? fields [] text.members with
  | none =>
    rw [hjoin] at hread
    obtain ⟨problem, hread⟩ := eq_error_of_toOption hread
    rw [hread]
  | some found =>
    rw [hjoin] at hread
    rw [eq_ok_of_toOption hread]

theorem ofJson_of_gives {text : Json.Document} (h : Gives text.members settings)
    (hnodup : (settings.map Setting.name).Nodup)
    : ofJson text.text = (settings.foldl Setting.on {}).validated := by
  have hjoin : Json.joinAll? fields [] text.members = some (foundOf settings ++ []) :=
    h.joinAll? hnodup fun _ _ => List.lookup_nil
  rw [ofJson_document, hjoin, ← ofMembers_foundOf, List.append_nil]

theorem ofJson_of_not_gives {text : Json.Document}
    (h : ∀ settings, Gives text.members settings → ¬(settings.map Setting.name).Nodup)
    : ofJson text.text = .error (.config "Invalid JSON") := by
  rw [ofJson_document]
  split
  . rfl
  . rename_i found hjoin
    obtain ⟨settings, hgives, hnodup, -⟩ := exists_gives hjoin
    exact absurd hnodup (h settings hgives)

theorem Gives.cases_of_mem (h : Gives members settings) (hmem : member ∈ members)
    : (∃ name, member.name? = some name ∧ name ∉ fields.map (·.name)) ∨
      (∃ setting ∈ settings, member.name? = some setting.name ∧ setting.IsValue member.value) := by
  induction h with
  | nil => cases hmem
  | other hname hother h ih =>
    obtain rfl | hmem := List.mem_cons.1 hmem
    . exact .inl ⟨_, hname, hother⟩
    . exact ih hmem
  | setting hname hvalue h ih =>
    obtain rfl | hmem := List.mem_cons.1 hmem
    . exact .inr ⟨_, List.mem_cons_self, hname, hvalue⟩
    . obtain hother | ⟨setting, hsetting, hmember⟩ := ih hmem
      . exact .inl hother
      . exact .inr ⟨setting, List.mem_cons_of_mem _ hsetting, hmember⟩

theorem Gives.countP_eq (h : Gives members settings) {name : String}
    (hfield : name ∈ fields.map (·.name))
    : members.countP (·.name? = some name) = (settings.map Setting.name).count name := by
  induction h with
  | nil => rfl
  | @other _ _ _ other hname hother h ih =>
    have hne : other ≠ name := by
      rintro rfl
      exact hother hfield
    rw [List.countP_cons_of_neg (by simpa [hname] using hne), ih]
  | @setting _ _ _ setting hname hvalue h ih =>
    rw [List.countP_cons, List.map_cons, List.count_cons, ih]
    simp [hname]

/--
What is promised of the text of an object. The settings in it overwrite the defaults, in any order and among
any other members, and the configuration that comes out is held to the rules. A text is refused if it gives a
field twice, or a value that is not one of the field. A name with half of a character is not a name at all.
-/
structure ReadsDocument (text : Json.Document) : Prop where
  overrides : ∀ settings, Gives text.members settings → (settings.map Setting.name).Nodup →
    ofJson text.text = (settings.foldl Setting.on {}).validated
  repeated : ∀ field ∈ fields, 1 < text.members.countP (·.name? = some field.name) →
    ofJson text.text = .error (.config "Invalid JSON")
  misfit : ∀ field ∈ fields, ∀ member ∈ text.members, member.name? = some field.name →
    (∀ setting : Setting, setting.name = field.name → ¬setting.IsValue member.value) →
    ofJson text.text = .error (.config "Invalid JSON")
  unnamed : ∀ member ∈ text.members, member.name? = none →
    ofJson text.text = .error (.config "Invalid JSON")

theorem readsDocument (text : Json.Document) : ReadsDocument text where
  overrides := fun _ => ofJson_of_gives
  repeated := by
    intro field hfield hcount
    apply ofJson_of_not_gives
    intro settings hgives hnodup
    rw [hgives.countP_eq (List.mem_map_of_mem hfield)] at hcount
    exact absurd (List.nodup_iff_count.1 hnodup _) (Nat.not_le.2 hcount)
  misfit := by
    intro field hfield member hmember hname hvalue
    apply ofJson_of_not_gives
    intro settings hgives hnodup
    obtain ⟨name, hname', hother⟩ | ⟨setting, -, hname', hisValue⟩ := hgives.cases_of_mem hmember
    . cases hname.symm.trans hname'
      exact hother (List.mem_map_of_mem hfield)
    . exact hvalue setting (Option.some.inj (hname'.symm.trans hname)) hisValue
  unnamed := by
    intro member hmember hname
    apply ofJson_of_not_gives
    intro settings hgives hnodup
    obtain ⟨name, hname', -⟩ | ⟨setting, -, hname', -⟩ := hgives.cases_of_mem hmember
    . cases hname.symm.trans hname'
    . cases hname.symm.trans hname'

theorem readsDocument_scattered
    : ∃ text : Json.Document,
        text.text =
          "\x7b \"x\":[\x7b\"handler_port\":-1\x7d],\"handler_p\\u006Frt\" :\t80,\"max_connections\":3\x7d" ∧
        ofJson text.text = .ok { handlerPort := 80, maxConnections := 3 } := by
  let inner : Json.Tree := .object [] [{
    name := Json.pieces "handler_port"
    value := .number { negative := true, whole := .positive ⟨1, []⟩ (by decide) } }]
  let unknown : Json.Member Json.Tree := {
    before := [.space]
    name := Json.pieces "x"
    value := .list [] [{ value := inner }] }
  let letter : Json.CodeUnit := ⟨⟨0, false⟩, ⟨0, false⟩, ⟨6, false⟩, ⟨15, true⟩⟩
  let port : Json.Member Json.Tree := {
    name := Json.pieces "handler_p" ++ .coded letter :: Json.pieces "rt"
    beforeColon := [.space]
    beforeValue := [.tab]
    value := .number { whole := .positive ⟨8, [0]⟩ (by decide) } }
  let max : Json.Member Json.Tree := {
    name := Json.pieces "max_connections"
    value := .number { whole := .positive ⟨3, []⟩ (by decide) } }
  refine ⟨{ members := [unknown, port, max] }, ?_, ?_⟩
  . decide +kernel
  . have hunknown : unknown.name? = some "x" := by decide +kernel
    have hgives : Gives [unknown, port, max] [.handlerPort 80, .maxConnections 3] := by
      refine .other hunknown (by decide) (.setting ?_ ?_ (.setting ?_ ?_ .nil))
      . decide +kernel
      . exact (by decide +kernel : port.value.natural? = some 80)
      . decide +kernel
      . exact (by decide +kernel : max.value.natural? = some 3)
    exact (readsDocument { members := [unknown, port, max] }).overrides _ hgives (by decide)

end

end MediaProxy.Config
