import CardDuel.Codec.Card
import CardDuel.Codec.Match
import CardDuel.Proofs.Codec.Fields

/-!
# Round trips

What is written as JSON is read back as it was.  Each record is written as the members of its
`slots`, so that reading it back comes down to reading each slot; an action or a special has its
kind before them, and a card has the members of its kind in the middle.

* `Action.ofJson?_toJson`, `Trigger.ofJson?_toJson`, `Special.ofJson?_toJson`,
  `Card.ofJson?_toJson`, `BoardUnit.ofJson?_toJson`, `Settings.ofJson?_toJson`,
  `Dice.ofJson?_toJson` — every kind of value is read back, those with chances if these are numbers.
* `Card.otherMembers_members` — what a card leaves to its kind is what the kind has written.
* `Action.mem_names_cleanse`, `Trigger.mem_names_toJson`, `Special.mem_names_resistance`,
  `Card.mem_names_toJson` — what is not there is not written.
* `json_round_trip` — all of these.
-/

set_option autoImplicit false

namespace CardDuel

open Json (Key Slots Apart slots? slots?_perm slots?_written slots?_tagged slots?_unknown_append
  tagged? tagged?_written written written_take_append_drop read_field required_of_read
  withDefault_of_read)

@[simp]
theorem Lane.ofField?_toJson (l : Lane) : ofField? l.toJson = some l :=
  ofField?_of_ofJson? l.ofJson?_toJson

@[simp]
theorem Status.ofField?_toJson (s : Status) : ofField? s.toJson = some s :=
  ofField?_of_ofJson? s.ofJson?_toJson

@[simp]
theorem Target.ofField?_toJson (t : Target) : ofField? t.toJson = some t :=
  ofField?_of_ofJson? t.ofJson?_toJson

/-! ## Actions -/

namespace Action

/-- The slots of an action. -/
def slots : Action → Slots
  | .gainShield t n | .heal t n | .modifyAttack t n => [some t.toJson, some (Json.ofInt32 n)]
  | .gainShares n | .drawCard n => [some (Json.ofInt32 n)]
  | .cleanse t ss => [some t.toJson, ss.map (Json.ofList Status.toJson)]
  | .applyStatus t s n => [some t.toJson, some s.toJson, some (Json.ofInt32 n)]

theorem members_eq_written (a : Action) : a.members = written (keys a.kind) a.slots := by
  cases a with
  | cleanse t ss => cases ss <;> rfl
  | _ => rfl

theorem length_slots (a : Action) : a.slots.length = (keys a.kind).length := by
  cases a <;> rfl

theorem apart_keys (kind : ActionKind) : Apart (["kind"] :: keys kind) := by
  cases kind <;> decide

theorem readable_slots (a : Action) : ∀ v, some v ∈ a.slots → v.readable = true := by
  cases a with
  | cleanse t ss =>
    intro v hv
    simp only [slots, List.mem_cons, List.not_mem_nil, or_false, Option.some.injEq] at hv
    rcases hv with rfl | hv
    · rfl
    · exact Json.readable_of_map (fun _ => Json.readable_ofList fun _ _ => rfl) hv
  | _ => simp [slots, Target.toJson, Status.toJson, Json.readable, Json.ofInt32]

/-- The fields of an action are read back. -/
theorem ofSlots?_slots (a : Action) : ofSlots? a.kind a.slots = some a := by
  cases a with
  | cleanse t ss =>
    have hstatuses : Json.optional (Json.list? Status.ofField?)
        (ss.map (Json.ofList Status.toJson)) = some ss :=
      Json.optional_map rfl fun ss _ => Json.list?_ofList fun s _ => s.ofField?_toJson
    simp [slots, kind, ofSlots?, hstatuses]
  | _ => simp [slots, kind, ofSlots?]

/-- **An action is read back.** -/
@[simp]
theorem ofJson?_toJson (a : Action) : ofJson? a.toJson = some a := by
  have htagged : tagged? a.toJson = some (a.kind.spelling, a.toJson) := by
    rw [toJson, members_eq_written]
    exact tagged?_written (apart_keys a.kind) a.readable_slots _
  have hslots : slots? (keys a.kind) a.toJson = some a.slots := by
    rw [toJson, members_eq_written]
    exact slots?_tagged (apart_keys a.kind) a.length_slots _
  simp [ofJson?, htagged, hslots, ActionKind.ofSpelling?_spelling, ofSlots?_slots]

/-- A cleanse without a list is written without one, unlike a cleanse with an empty list. -/
theorem mem_names_cleanse (target : Target) (statuses : Option (List Status)) :
    "statuses" ∈ (cleanse target statuses).toJson.names ↔ statuses.isSome = true := by
  rw [toJson, members_eq_written, Json.names_cons, List.mem_cons, Json.mem_names_written_iff]
  simp [keys, kind, slots, Json.spelling]

end Action

/-! ## Triggers -/

namespace Trigger

/-- The slots of a trigger. -/
def slots (t : Trigger) : Slots :=
  [some t.event.toJson, some (Json.ofList Action.toJson t.actions),
    Json.slotOfList Condition.toJson t.conditions, t.note.map .string]

theorem toJson_eq_written (t : Trigger) : t.toJson = .object (written keys t.slots) := by
  obtain ⟨event, actions, conditions, note⟩ := t
  cases conditions <;> cases note <;> rfl

/-- **A trigger is read back.** -/
@[simp]
theorem ofJson?_toJson (t : Trigger) : ofJson? t.toJson = some t := by
  have hslots : slots? keys t.toJson = some t.slots := by
    rw [toJson_eq_written, slots?_written (by decide) rfl]
  have hactions : Json.list? Action.ofJson? (Json.ofList Action.toJson t.actions) =
      some t.actions :=
    Json.list?_ofList fun a _ => a.ofJson?_toJson
  have hconditions : Json.withDefault [] (Json.list? Condition.ofJson?)
      (Json.slotOfList Condition.toJson t.conditions) = some t.conditions :=
    Json.withDefault_slotOfList fun c _ => c.ofJson?_toJson
  have hnote : Json.optional Json.string? (t.note.map .string) = some t.note :=
    Json.optional_map rfl fun _ _ => rfl
  simp [ofJson?, hslots, slots, hactions, hconditions, hnote]

/-- What a trigger does without is not written. -/
theorem mem_names_toJson (t : Trigger) : ("requires" ∈ t.toJson.names ↔ t.conditions ≠ []) ∧
    ("note" ∈ t.toJson.names ↔ t.note.isSome = true) := by
  rw [t.toJson_eq_written, Json.mem_names_written_iff, Json.mem_names_written_iff]
  simp [keys, slots, Json.spelling]

end Trigger

/-! ## Specials -/

namespace Special

/-- The keys of a special beside its kind. -/
def keys : Special → List Key
  | .taunt => []
  | .shieldOnSummon _ => [["amount"]]
  | .resistance .. => resistanceKeys

/-- The slots of a special. -/
def slots : Special → Slots
  | .taunt => []
  | .shieldOnSummon n => [some (Json.ofInt32 n)]
  | .resistance stun exposed attackDown =>
    [stun.map Json.ofFloat, exposed.map Json.ofFloat, attackDown.map Json.ofFloat]

/-- The chances of a resistance are numbers. -/
def Finite : Special → Prop
  | .taunt | .shieldOnSummon _ => True
  | .resistance stun exposed attackDown =>
    ∀ chance, some chance ∈ [stun, exposed, attackDown] → chance.isFinite = true

theorem members_eq_written (s : Special) : s.members = written s.keys s.slots := by
  cases s with
  | resistance stun exposed attackDown =>
    cases stun <;> cases exposed <;> cases attackDown <;> rfl
  | _ => rfl

theorem apart_keys (s : Special) : Apart (["kind"] :: s.keys) := by
  cases s with
  | _ => simp only [keys, resistanceKeys]; decide

theorem readable_slots (s : Special) : ∀ v, some v ∈ s.slots → v.readable = true := by
  cases s with
  | resistance stun exposed attackDown =>
    intro v hv
    simp only [slots, List.mem_cons, List.not_mem_nil, or_false] at hv
    rcases hv with hv | hv | hv <;> exact Json.readable_of_map Json.readable_ofFloat hv
  | _ => simp [slots, Json.readable, Json.ofInt32]

/-- **A special is read back** if its chances are numbers. -/
theorem ofJson?_toJson {s : Special} (hs : s.Finite) : ofJson? s.toJson = some s := by
  have htagged : tagged? s.toJson = some (s.kindSpelling, s.toJson) := by
    rw [toJson, members_eq_written]
    exact tagged?_written s.apart_keys s.readable_slots _
  have hslots : slots? s.keys s.toJson = some s.slots := by
    rw [toJson, members_eq_written]
    exact slots?_tagged s.apart_keys (by cases s <;> rfl) _
  rw [ofJson?, htagged]
  cases s with
  | taunt =>
    simp only [keys, slots] at hslots
    simp [kindSpelling, hslots]
  | shieldOnSummon n =>
    simp only [keys, slots] at hslots
    simp [kindSpelling, hslots]
  | resistance stun exposed attackDown =>
    simp only [keys, slots] at hslots
    have hchance (chance : Option Float) (hmem : chance ∈ [stun, exposed, attackDown]) :
        Json.optional Json.float? (chance.map Json.ofFloat) = some chance :=
      Json.optional_map rfl fun x hx => Json.float?_ofFloat (hs x (hx ▸ hmem))
    simp [kindSpelling, hslots, hchance]

/-- A chance that is not given is not written. -/
theorem mem_names_resistance (stun exposed attackDown : Option Float) :
    let names := (resistance stun exposed attackDown).toJson.names
    ("stun" ∈ names ↔ stun.isSome = true) ∧ ("exposed" ∈ names ↔ exposed.isSome = true) ∧
      ("atkDown" ∈ names ↔ attackDown.isSome = true) := by
  simp only [toJson, members_eq_written, Json.names_cons, List.mem_cons, Json.mem_names_written_iff]
  simp [keys, resistanceKeys, slots, Json.spelling]

end Special

/-! ## Cards -/

namespace Stats

/-- The slots of stats. -/
def slots (s : Stats) : Slots := [some (Json.ofInt32 s.attack), some (Json.ofInt32 s.health)]

@[simp]
theorem ofJson?_toJson (s : Stats) : ofJson? s.toJson = some s := by
  have hwritten : s.toJson = .object (written [["attack"], ["health"]] s.slots) := rfl
  have hslots : slots? [["attack"], ["health"]] s.toJson = some s.slots := by
    rw [hwritten, slots?_written (by decide) rfl]
  simp [ofJson?, hslots, slots]

end Stats

namespace CardKind

/-- The spelling of a kind. -/
def spelling : CardKind → String
  | .unit .. => "unit"
  | .nonUnit => "non_unit"

/-- The keys of a kind beside its spelling. -/
def keys : CardKind → List Key
  | .unit .. => [["lane"], ["stats"]]
  | .nonUnit => []

/-- The slots of a kind. -/
def slots : CardKind → Slots
  | .unit lane stats => [some lane.toJson, some stats.toJson]
  | .nonUnit => []

theorem members_eq_written (k : CardKind) :
    k.members = ("kind", .string k.spelling) :: written k.keys k.slots := by
  cases k <;> rfl

theorem apart_keys (k : CardKind) : Apart (["kind"] :: k.keys) := by
  cases k <;> simp only [keys] <;> decide

/-- The fields of a kind are read back. -/
theorem ofRecord?_members (k : CardKind) :
    ofRecord? k.spelling (.object k.members) = some k := by
  have hslots : slots? k.keys (.object k.members) = some k.slots := by
    rw [members_eq_written]
    exact slots?_tagged k.apart_keys (by cases k <;> rfl) _
  cases k with
  | unit lane stats =>
    simp only [keys, slots] at hslots
    simp [ofRecord?, spelling, hslots]
  | nonUnit => rfl

end CardKind

namespace Card

/-- The fields that a card reads on their own. -/
def slots (c : Card) : Slots :=
  [some (.string c.id), some (.string c.name), some (.string c.faction), some (.string c.role),
    some (Json.ofUInt32 c.cost), c.dirtyPower.map Json.ofUInt32,
    Json.slotOfList .string c.keywords, Json.slotOfList Special.toJson c.specials,
    Json.slotOfList Trigger.toJson c.triggers]

/-- The members of a card as they are written: those of its kind stand in the middle. -/
def members (c : Card) : List (String × Json) :=
  written (ownKeys.take 5) (c.slots.take 5) ++ c.kind.members ++
    written (ownKeys.drop 5) (c.slots.drop 5)

theorem toJson_eq_members (c : Card) : c.toJson = .object c.members := by
  obtain ⟨id, name, faction, role, cost, kind, dirtyPower, keywords, specials, triggers⟩ := c
  cases dirtyPower <;> cases keywords <;> cases specials <;> cases triggers <;>
    simp [toJson, members, slots, ownKeys, written, Json.memberOfOption, Json.memberOfList,
      Json.slotOfList, Json.spelling]

/-- The members of a kind are none that a card reads on its own. -/
theorem notMem_ownKeys (k : CardKind) : ∀ m ∈ k.members, ∀ key ∈ ownKeys, m.1 ∉ key := by
  have hnames : ∀ name ∈ ["kind", "lane", "stats"], ∀ key ∈ ownKeys, name ∉ key := by decide
  intro m hm
  refine hnames m.1 ?_
  cases k <;> simp only [CardKind.members, List.mem_cons, List.not_mem_nil, or_false] at hm
  case unit => rcases hm with rfl | rfl | rfl <;> simp
  case nonUnit => simp [hm]

theorem slots?_members (c : Card) : slots? ownKeys (.object c.members) = some c.slots := by
  have hperm : c.members.Perm (c.kind.members ++ written ownKeys c.slots) := by
    rw [← written_take_append_drop 5, ← List.append_assoc]
    exact List.perm_append_comm.append_right _
  rw [slots?_perm _ hperm, slots?_unknown_append (notMem_ownKeys c.kind),
    slots?_written (by decide) rfl]

theorem otherMembers_append (ms ms' : List (String × Json)) :
    otherMembers (ms ++ ms') = otherMembers ms ++ otherMembers ms' :=
  List.filter_append ..

theorem otherMembers_written {keys : List Key} (hkeys : ∀ key ∈ keys, key ∈ ownKeys ∧ key ≠ [])
    (slots : Slots) : otherMembers (written keys slots) = [] := by
  rw [otherMembers, List.filter_eq_nil_iff]
  intro m hm
  obtain ⟨⟨key, hkey, hname⟩, -⟩ := Json.mem_written hm
  have hmem : ∃ key ∈ ownKeys, key.contains m.1 = true := by
    refine ⟨key, (hkeys key hkey).1, ?_⟩
    rw [List.contains_iff_mem, hname]
    exact Json.spelling_mem (hkeys key hkey).2
  simpa using hmem

/-- The members that are left are those of the kind. -/
theorem otherMembers_members (c : Card) : otherMembers c.members = c.kind.members := by
  have hkind : otherMembers c.kind.members = c.kind.members := by
    rw [otherMembers, List.filter_eq_self]
    intro m hm
    simpa using notMem_ownKeys c.kind m hm
  rw [members, otherMembers_append, otherMembers_append, hkind, otherMembers_written (by decide),
    otherMembers_written (by decide), List.nil_append, List.append_nil]

/-- The kind of a card is read back from the members that are left. -/
theorem kind?_members (k : CardKind) : kind? k.members = some k := by
  have hmember : Json.member? ["kind"] k.members = some (some (.string k.spelling)) := by
    rw [k.members_eq_written]
    exact Json.member?_kind_written k.apart_keys _ _
  simp [kind?, hmember, CardKind.nameInCard?, k.ofRecord?_members]

/-- **A card is read back** if the chances of its resistances are numbers. -/
theorem ofJson?_toJson {c : Card} (hc : ∀ s ∈ c.specials, s.Finite) :
    ofJson? c.toJson = some c := by
  have hreadable : Json.readableMembers c.kind.members = true := by
    cases c.kind <;> rfl
  have hdirtyPower : Json.optional Json.uint32? (c.dirtyPower.map Json.ofUInt32) =
      some c.dirtyPower :=
    Json.optional_map rfl fun n _ => Json.uint32?_ofUInt32 n
  have hkeywords : Json.withDefault [] (Json.list? Json.string?)
      (Json.slotOfList .string c.keywords) = some c.keywords :=
    Json.withDefault_slotOfList fun _ _ => rfl
  have hspecials : Json.withDefault [] (Json.list? Special.ofJson?)
      (Json.slotOfList Special.toJson c.specials) = some c.specials :=
    Json.withDefault_slotOfList fun s hs => Special.ofJson?_toJson (hc s hs)
  have htriggers : Json.withDefault [] (Json.list? Trigger.ofJson?)
      (Json.slotOfList Trigger.toJson c.triggers) = some c.triggers :=
    Json.withDefault_slotOfList fun t _ => t.ofJson?_toJson
  rw [toJson_eq_members, ofJson?]
  simp only [otherMembers_members, hreadable, Bool.not_true, Bool.false_eq_true, if_false]
  refine read_field c.slots?_members ?_
  refine read_field (required_of_read (Json.string?_string c.id)) ?_
  refine read_field (required_of_read (Json.string?_string c.name)) ?_
  refine read_field (withDefault_of_read (Json.string?_string c.faction)) ?_
  refine read_field (withDefault_of_read (Json.string?_string c.role)) ?_
  refine read_field (withDefault_of_read (Json.uint32?_ofUInt32 c.cost)) ?_
  refine read_field (kind?_members c.kind) ?_
  refine read_field hdirtyPower ?_
  refine read_field hkeywords ?_
  refine read_field hspecials ?_
  exact read_field htriggers rfl

/-- What a card does without is not written; what makes a unit card is written for it alone. -/
theorem mem_names_toJson (c : Card) :
    ("keywords" ∈ c.toJson.names ↔ c.keywords ≠ []) ∧
    ("specials" ∈ c.toJson.names ↔ c.specials ≠ []) ∧
    ("triggers" ∈ c.toJson.names ↔ c.triggers ≠ []) ∧
    ("dirtyPower" ∈ c.toJson.names ↔ c.dirtyPower.isSome = true) ∧
    ("lane" ∈ c.toJson.names ↔ c.isUnit = true) ∧
    ("stats" ∈ c.toJson.names ↔ c.isUnit = true) := by
  have hkind : (Json.object c.kind.members).names =
      if c.isUnit then ["kind", "lane", "stats"] else ["kind"] := by
    unfold isUnit
    cases c.kind <;> rfl
  simp only [toJson_eq_members, members, Json.names_append, List.mem_append,
    Json.mem_names_written_iff, hkind]
  cases c.isUnit <;> simp [ownKeys, slots, Json.spelling]

end Card

/-! ## Units, settings and dice -/

namespace BoardUnit

/-- The slots of a unit. -/
def slots (u : BoardUnit) : Slots :=
  [some u.id.toJson, some (.string u.cardId), some (.string u.name), some u.side.toJson,
    some u.lane.toJson, some (Json.ofInt32 u.attack), some (Json.ofInt32 u.health),
    some (Json.ofInt32 u.maxHealth), some (Json.ofUInt32 u.shield),
    some (Json.ofOption Json.ofUInt32 u.stunUntil),
    some (Json.ofOption Json.ofUInt32 u.exposedUntil), some (Json.ofUInt32 u.attackPenalty),
    some (Json.ofOption Json.ofUInt32 u.attackPenaltyUntil)]

/-- **A unit is read back.** -/
theorem ofJson?_toJson (u : BoardUnit) : ofJson? u.toJson = some u := by
  have hwritten : u.toJson = .object (written keys u.slots) := rfl
  have hslots : slots? keys u.toJson = some u.slots := by
    rw [hwritten, slots?_written (by decide) rfl]
  have huntil (expiry : Option UInt32) : Json.optional Json.uint32?
      (some (Json.ofOption Json.ofUInt32 expiry)) = some expiry :=
    Json.optional_ofOption rfl fun n _ => Json.uint32?_ofUInt32 n
  rw [ofJson?]
  refine read_field hslots ?_
  refine read_field (required_of_read u.id.ofJson?_toJson) ?_
  refine read_field (required_of_read (Json.string?_string u.cardId)) ?_
  refine read_field (required_of_read (Json.string?_string u.name)) ?_
  refine read_field (required_of_read u.side.ofJson?_toJson) ?_
  refine read_field (required_of_read u.lane.ofJson?_toJson) ?_
  refine read_field (required_of_read (Json.int32?_ofInt32 u.attack)) ?_
  refine read_field (required_of_read (Json.int32?_ofInt32 u.health)) ?_
  refine read_field (required_of_read (Json.int32?_ofInt32 u.maxHealth)) ?_
  refine read_field (required_of_read (Json.uint32?_ofUInt32 u.shield)) ?_
  refine read_field (huntil u.stunUntil) ?_
  refine read_field (huntil u.exposedUntil) ?_
  refine read_field (withDefault_of_read (Json.uint32?_ofUInt32 u.attackPenalty)) ?_
  exact read_field (huntil u.attackPenaltyUntil) rfl

end BoardUnit

namespace Settings

/-- The slots of settings. -/
def slots (s : Settings) : Slots :=
  [some (Json.ofUInt32 s.attackPenalty), some (.string s.sourceTag)]

/-- **Settings are read back.** -/
theorem ofJson?_toJson (s : Settings) : ofJson? s.toJson = some s := by
  have hwritten : s.toJson = .object (written [["attack_penalty"], ["source_tag"]] s.slots) := rfl
  have hslots : slots? [["attack_penalty"], ["source_tag"]] s.toJson = some s.slots := by
    rw [hwritten, slots?_written (by decide) rfl]
  rw [ofJson?]
  refine read_field hslots ?_
  refine read_field (withDefault_of_read (Json.uint32?_ofUInt32 s.attackPenalty)) ?_
  exact read_field (withDefault_of_read (Json.string?_string s.sourceTag)) rfl

end Settings

namespace Dice

/-- The slots of the state of the dice. -/
def slots (d : Dice) : Slots := [some (Json.ofUInt64 d.seed), some (Json.ofUInt64 d.draws)]

/-- **The state of the dice is read back.** -/
theorem ofJson?_toJson (d : Dice) : ofJson? d.toJson = some d := by
  have hwritten : d.toJson = .object (written [["seed"], ["draws"]] d.slots) := rfl
  have hslots : slots? [["seed"], ["draws"]] d.toJson = some d.slots := by
    rw [hwritten, slots?_written (by decide) rfl]
  rw [ofJson?]
  refine read_field hslots ?_
  refine read_field (required_of_read (Json.uint64?_ofUInt64 d.seed)) ?_
  exact read_field (required_of_read (Json.uint64?_ofUInt64 d.draws)) rfl

end Dice

/-- **Round trips.**  Whatever is written as JSON is read back as it was: specials and cards whose
chances are numbers, actions, triggers, units, settings and the state of the dice.  Members are
missing exactly for what a card, a trigger, a cleanse or a resistance does without, and a card that
is no unit has neither lane nor stats. -/
theorem json_round_trip :
    (∀ s : Special, s.Finite → Special.ofJson? s.toJson = some s) ∧
    (∀ a : Action, Action.ofJson? a.toJson = some a) ∧
    (∀ t : Trigger, Trigger.ofJson? t.toJson = some t) ∧
    (∀ c : Card, (∀ s ∈ c.specials, s.Finite) → Card.ofJson? c.toJson = some c) ∧
    (∀ u : BoardUnit, BoardUnit.ofJson? u.toJson = some u) ∧
    (∀ s : Settings, Settings.ofJson? s.toJson = some s) ∧
    (∀ d : Dice, Dice.ofJson? d.toJson = some d) ∧
    (∀ c : Card, ("keywords" ∈ c.toJson.names ↔ c.keywords ≠ []) ∧
      ("specials" ∈ c.toJson.names ↔ c.specials ≠ []) ∧
      ("triggers" ∈ c.toJson.names ↔ c.triggers ≠ []) ∧
      ("dirtyPower" ∈ c.toJson.names ↔ c.dirtyPower.isSome = true) ∧
      ("lane" ∈ c.toJson.names ↔ c.isUnit = true) ∧
      ("stats" ∈ c.toJson.names ↔ c.isUnit = true)) ∧
    (∀ t : Trigger, ("requires" ∈ t.toJson.names ↔ t.conditions ≠ []) ∧
      ("note" ∈ t.toJson.names ↔ t.note.isSome = true)) ∧
    (∀ target statuses, "statuses" ∈ (Action.cleanse target statuses).toJson.names ↔
      statuses.isSome = true) ∧
    ∀ stun exposed attackDown,
      let names := (Special.resistance stun exposed attackDown).toJson.names
      ("stun" ∈ names ↔ stun.isSome = true) ∧ ("exposed" ∈ names ↔ exposed.isSome = true) ∧
        ("atkDown" ∈ names ↔ attackDown.isSome = true) :=
  ⟨fun _ hs => Special.ofJson?_toJson hs, Action.ofJson?_toJson, Trigger.ofJson?_toJson,
    fun _ hc => Card.ofJson?_toJson hc, BoardUnit.ofJson?_toJson, Settings.ofJson?_toJson,
    Dice.ofJson?_toJson, Card.mem_names_toJson, Trigger.mem_names_toJson, Action.mem_names_cleanse,
    Special.mem_names_resistance⟩

/-- A unit card with some of everything. -/
def archivist : Card :=
  { id := "archivist", name := "Archivist", cost := 3, kind := .unit .front ⟨-1, 4⟩
    dirtyPower := some 7, keywords := ["Old", "Grey"]
    specials := [.taunt, .resistance (some 0.25) none (some 1.0)]
    triggers := [{ event := .hit, actions := [.cleanse .self (some []), .cleanse .self none],
                   conditions := [.sourceSurvived], note := some "dust" }] }

/-- A card that is played for its effect, and has none. -/
def decree : Card := { id := "decree", name := "Decree", kind := .nonUnit }

theorem json_round_trip_archivist :
    (∀ s ∈ archivist.specials, s.Finite) ∧ Card.ofJson? archivist.toJson = some archivist ∧
    Card.ofJson? decree.toJson = some decree ∧
    "dirtyPower" ∈ archivist.toJson.names ∧ "lane" ∉ decree.toJson.names := by
  obtain ⟨-, -, -, hcard, -, -, -, hnames, -⟩ := json_round_trip
  have hchances : (Special.resistance (some 0.25) none (some 1.0)).Finite := by
    intro chance hchance
    simp only [List.mem_cons, Option.some.injEq, List.not_mem_nil, or_false, reduceCtorEq,
      false_or] at hchance
    rcases hchance with rfl | rfl
    · decide +kernel
    · decide +kernel
  have harchivist : ∀ s ∈ archivist.specials, s.Finite :=
    List.forall_mem_cons.2 ⟨trivial, List.forall_mem_singleton.2 hchances⟩
  have hdecree : ∀ s ∈ decree.specials, s.Finite := List.forall_mem_nil _
  refine ⟨harchivist, hcard archivist harchivist, hcard decree hdecree, ?_, ?_⟩
  · exact (hnames archivist).2.2.2.1.2 rfl
  · intro hlane
    exact Bool.false_ne_true ((hnames decree).2.2.2.2.1.1 hlane)

end CardDuel
