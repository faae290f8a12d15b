import CardDuel.Codec.Card
import CardDuel.Codec.Match
import CardDuel.Proofs.Codec.Members

/-!
# Records in any order

What a card, a trigger, an action, a special, a unit, settings or inputs are read as depends neither
on the order of members nor on members that are not known, at any depth; a known key that is given
twice is refused wherever its members stand.

Actions and specials are tagged: which keys they know depends on their kind (`taggedKeys`).  The
same goes for what a card leaves to its kind (`Card.kindKeys`).  There an unknown member is skipped
only if nothing in it is unreadable; elsewhere it may be anything.

* `IgnoresOrder.of_record`, `IgnoresOrder.of_tagged` — a reader of slots ignores order.
* `Trigger.ofJson?_object`, `Card.ofJson?_object` — triggers and cards are read field by field.
* `decoding_ignores_order` — what is read, for every kind of value.
* `unreadable_member_refused` — a card notices an unknown member that is unreadable.
-/

set_option autoImplicit false

namespace CardDuel

open Json (Key Slots slots? member? field required optional withDefault list? string? int32? uint32?
  Unknown Repeated Rearranged Reordered Itemwise IgnoresOrder slots?_of_repeated field_of_repeated)

namespace Json

variable {α : Type} {ms : List (String × Json)}

/-! ## Records -/

/-- **A record ignores order** if it is read from its slots. -/
theorem IgnoresOrder.of_record {read? : Json → Option α} {keys : List Key}
    {build : Slots → Option α} {skipped : Json → Prop}
    (hread : ∀ v, read? v = (slots? keys v).bind build) :
    IgnoresOrder read? (fun _ => keys) (Reordered (fun _ => keys) (fun _ => Eq) skipped) where
  agrees := by
    intro v v' h
    cases h with
    | same => rfl
    | @object ms ms' h =>
      have hslots : slots? keys (.object ms) = slots? keys (.object ms') :=
        h.slots? (fun _ _ hm => hm.1) fun _ _ _ _ _ _ hv => hv
      rw [hread, hread, hslots]
  refuses := by
    intro ms key hkey hrepeated
    rw [hread, slots?_of_repeated hkey hrepeated]
    rfl

/-! ## Tagged values -/

/-- The keys of a tagged object: that of its kind and those of the fields of this kind. -/
def taggedKeys (keys : String → List Key) (ms : List (String × Json)) : List Key :=
  ["kind"] :: ((field ["kind"] (required string?) ms).map keys).getD []

theorem taggedKeys_of_kind {keys : String → List Key} {kind : String}
    (h : field ["kind"] (required string?) ms = some kind) :
    taggedKeys keys ms = ["kind"] :: keys kind := by
  rw [taggedKeys, h]
  rfl

/-- The kind of a readable object is what stands under `kind`. -/
theorem tagged?_object (ms : List (String × Json)) :
    tagged? (.object ms) = if (Json.object ms).readable then
      (field ["kind"] (required string?) ms).map (·, .object ms) else none := by
  unfold tagged? field
  split
  · show (member? ["kind"] ms).bind _ = _
    cases member? ["kind"] ms with
    | none => rfl
    | some slot =>
      cases slot with
      | none => rfl
      | some v => cases v <;> rfl
  · rfl

/-- **A tagged value ignores order** if it is read from the slots that its kind has. -/
theorem IgnoresOrder.of_tagged {read? : Json → Option α} {keys : String → List Key}
    {build : String → Slots → Option α}
    (hread : ∀ v, read? v = (tagged? v).bind fun p => (slots? (keys p.1) p.2).bind (build p.1)) :
    IgnoresOrder read? (taggedKeys keys)
      (Reordered (taggedKeys keys) (fun _ => Eq) fun v => v.readable = true) where
  agrees := by
    intro v v' h
    cases h with
    | same => rfl
    | @object ms ms' h =>
      -- the kind is found first; only with it is known which keys are looked up
      have hreadable := h.readable (fun _ _ _ hv => hv ▸ rfl) fun _ _ hm => hm.2
      have hkind : field ["kind"] (required string?) ms = field ["kind"] (required string?) ms' :=
        h.field (fun _ _ hm => hm.1 _ (.head _)) fun _ _ _ _ hv => hv ▸ rfl
      rw [hread, hread, tagged?_object, tagged?_object, ← hreadable, ← hkind]
      split
      · cases hk : field ["kind"] (required string?) ms with
        | none => rfl
        | some kind =>
          have hslots : slots? (keys kind) (.object ms) = slots? (keys kind) (.object ms') := by
            refine h.slots? (fun name v hm key hkey => ?_) fun _ _ _ _ _ _ hv => hv
            apply hm.1 key
            rw [taggedKeys_of_kind hk]
            exact .tail _ hkey
          show (slots? (keys kind) (.object ms)).bind _ = (slots? (keys kind) (.object ms')).bind _
          rw [hslots]
      · rfl
  refuses := by
    intro ms key hkey hrepeated
    rw [hread, tagged?_object]
    split
    · cases hk : field ["kind"] (required string?) ms with
      | none => rfl
      | some kind =>
        rw [taggedKeys_of_kind hk] at hkey
        rcases List.mem_cons.1 hkey with rfl | hkey
        · rw [field_of_repeated _ hrepeated] at hk
          cases hk
        · show (slots? (keys kind) (.object ms)).bind _ = none
          rw [slots?_of_repeated hkey hrepeated]
          rfl
    · rfl

end Json

/-! ## Actions, specials and stats -/

namespace Action

/-- The keys of an action whose kind has the given name. -/
def keysNamed (name : String) : List Key :=
  ((ActionKind.ofSpelling? name).map keys).getD []

/-- The action whose kind has the given name, with the given fields. -/
def ofNamed? (name : String) (slots : Slots) : Option Action :=
  (ActionKind.ofSpelling? name).bind (ofSlots? · slots)

/-- Two values that differ in the order of the members of an action and in unknown members. -/
def Same : Json → Json → Prop :=
  Reordered (Json.taggedKeys keysNamed) (fun _ => Eq) fun v => v.readable = true

/-- An action is read from the slots that its kind has. -/
theorem ofJson?_eq (v : Json) :
    ofJson? v = (Json.tagged? v).bind fun p =>
      (slots? (keysNamed p.1) p.2).bind (ofNamed? p.1) := by
  unfold ofJson?
  cases Json.tagged? v with
  | none => rfl
  | some p =>
    obtain ⟨name, record⟩ := p
    show (ActionKind.ofSpelling? name).bind _ = (slots? (keysNamed name) record).bind _
    unfold keysNamed ofNamed?
    cases ActionKind.ofSpelling? name with
    | none => exact (Option.bind_fun_none _).symm
    | some kind => rfl

theorem ignoresOrder : IgnoresOrder ofJson? (Json.taggedKeys keysNamed) Same :=
  .of_tagged ofJson?_eq

end Action

namespace Special

/-- The keys of a special whose kind has the given name. -/
def keysNamed : String → List Key
  | "shield_on_summon" => [["amount"]]
  | "resistance" => resistanceKeys
  | _ => []

/-- The special of a kind with the given fields. -/
def ofSlots? : String → Slots → Option Special
  | "taunt", [] => some .taunt
  | "shield_on_summon", [n] => return .shieldOnSummon (← required int32? n)
  | "resistance", [stun, exposed, attackDown] =>
    return .resistance (← optional Json.float? stun) (← optional Json.float? exposed)
      (← optional Json.float? attackDown)
  | _, _ => none

/-- Two values that differ in the order of the members of a special and in unknown members. -/
def Same : Json → Json → Prop :=
  Reordered (Json.taggedKeys keysNamed) (fun _ => Eq) fun v => v.readable = true

/-- A special is read from the slots that its kind has. -/
theorem ofJson?_eq (v : Json) :
    ofJson? v = (Json.tagged? v).bind fun p =>
      (slots? (keysNamed p.1) p.2).bind (ofSlots? p.1) := by
  unfold ofJson?
  cases Json.tagged? v with
  | none => rfl
  | some p =>
    obtain ⟨name, record⟩ := p
    simp only [Option.bind_eq_bind, Option.bind_some]
    split
    · show (slots? [] record).bind _ = (slots? [] record).bind _
      congr 1
      funext slots
      cases slots <;> rfl
    · show (slots? [["amount"]] record).bind _ = (slots? [["amount"]] record).bind _
      congr 1
      funext slots
      match slots with
      | [] | [_] | _ :: _ :: _ => rfl
    · show (slots? resistanceKeys record).bind _ = (slots? resistanceKeys record).bind _
      congr 1
      funext slots
      match slots with
      | [] | [_] | [_, _] | [_, _, _] | _ :: _ :: _ :: _ :: _ => rfl
    · rename_i htaunt hshield hresistance
      have hnone : ofSlots? name = fun _ => none := by
        funext slots
        unfold ofSlots?
        split <;> first | contradiction | rfl
      rw [hnone, Option.bind_fun_none]

theorem ignoresOrder : IgnoresOrder ofJson? (Json.taggedKeys keysNamed) Same :=
  .of_tagged ofJson?_eq

end Special

namespace Stats

/-- The keys of stats. -/
def keys : List Key := [["attack"], ["health"]]

/-- Two values that differ in the order of the members of stats and in unknown members. -/
def Same : Json → Json → Prop :=
  Reordered (fun _ => keys) (fun _ => Eq) fun v => v.readable = true

theorem ignoresOrder : IgnoresOrder ofJson? (fun _ => keys) Same :=
  .of_record fun _ => rfl

end Stats

/-! ## Triggers -/

namespace Trigger

/-- What may differ under a key of a trigger. -/
inductive Inside : String → Json → Json → Prop where
  | same (name : String) (v : Json) : Inside name v v
  | actions {v v' : Json} (h : Itemwise Action.Same v v') : Inside "actions" v v'

/-- Two values that differ in the order of the members of a trigger and its actions and in unknown
members. -/
inductive Same : Json → Json → Prop where
  | record {v v' : Json} (h : Reordered (fun _ => keys) Inside (fun _ => True) v v') : Same v v'
  | items (event : Json) {actions actions' : Json} (h : Itemwise Action.Same actions actions')
      (rest : List Json) :
      Same (.array (event :: actions :: rest)) (.array (event :: actions' :: rest))

theorem Inside.eq {name : String} {v v' : Json} (h : Inside name v v') (hname : name ≠ "actions") :
    v = v' := by
  cases h with
  | same => rfl
  | actions => exact absurd rfl hname

/-- **A trigger is read field by field.** -/
theorem ofJson?_object (ms : List (String × Json)) :
    ofJson? (.object ms) = do
      let event ← field ["when"] (required Event.ofJson?) ms
      let actions ← field ["actions"] (required (list? Action.ofJson?)) ms
      let conditions ← field ["requires"] (withDefault [] (list? Condition.ofJson?)) ms
      let note ← field ["note"] (optional string?) ms
      return { event, actions, conditions, note } := by
  unfold ofJson? keys
  simp only [Json.slots?_cons]
  unfold field
  cases member? ["when"] ms with
  | none => rfl
  | some event =>
    cases member? ["actions"] ms with
    | none =>
      simp only [Option.bind_eq_bind, Option.bind_some, Option.bind_none, Option.bind_fun_none]
    | some actions =>
      cases member? ["requires"] ms with
      | none =>
        simp only [Option.bind_eq_bind, Option.bind_some, Option.bind_none, Option.bind_fun_none]
      | some conditions =>
        cases member? ["note"] ms with
        | none =>
          simp only [Option.bind_eq_bind, Option.bind_some, Option.bind_none, Option.bind_fun_none]
        | some note => rfl

theorem slots?_items (event actions : Json) (rest : List Json) :
    slots? keys (.array (event :: actions :: rest)) =
      (slots? (keys.drop 2) (.array rest)).map fun slots =>
        some event :: some actions :: slots := by
  show (if rest.length + 2 ≤ 2 + 2 then
      some (some event :: some actions ::
        (rest.map some ++ List.replicate (2 + 2 - (rest.length + 2)) none)) else none) =
    (if rest.length ≤ 2 then
      some (rest.map some ++ List.replicate (2 - rest.length) none) else none).map _
  simp only [Nat.add_le_add_iff_right, Nat.add_sub_add_right]
  split <;> rfl

/-- A trigger that is given as an array is read item by item. -/
theorem ofJson?_items {actions actions' : Json} (h : Itemwise Action.Same actions actions')
    (event : Json) (rest : List Json) :
    ofJson? (.array (event :: actions :: rest)) = ofJson? (.array (event :: actions' :: rest)) := by
  have hactions : required (list? Action.ofJson?) (some actions) =
      required (list? Action.ofJson?) (some actions') := h.list? Action.ignoresOrder.agrees
  unfold ofJson?
  rw [slots?_items, slots?_items]
  cases slots? (keys.drop 2) (.array rest) with
  | none => rfl
  | some slots =>
    match slots with
    | [] | [_] | _ :: _ :: _ :: _ => rfl
    | [_, _] => simp only [Option.map_some, Option.bind_eq_bind, Option.bind_some, hactions]

theorem ignoresOrder : IgnoresOrder ofJson? (fun _ => keys) Same where
  agrees := by
    intro v v' h
    cases h with
    | items event h rest => exact ofJson?_items h event rest
    | record h =>
      cases h with
      | same => rfl
      | @object ms ms' h =>
        have hplain : ∀ key ∈ keys, "actions" ∉ key → ∀ {α : Type} (read? : Option Json → Option α),
            field key read? ms = field key read? ms' := by
          intro key hkey hname α read?
          refine h.field (fun _ _ hm => hm.1 key hkey) fun name hmem v v' hv => ?_
          rw [hv.eq fun heq => hname (heq ▸ hmem)]
        have hactions : field ["actions"] (required (list? Action.ofJson?)) ms =
            field ["actions"] (required (list? Action.ofJson?)) ms' := by
          refine h.field (fun _ _ hm => hm.1 _ (by decide)) fun name _ v v' hv => ?_
          cases hv with
          | same => rfl
          | actions hv => exact hv.list? Action.ignoresOrder.agrees
        rw [ofJson?_object, ofJson?_object, hplain _ (by decide) (by decide), hactions,
          hplain ["requires"] (by decide) (by decide), hplain ["note"] (by decide) (by decide)]
  refuses := by
    intro ms key hkey hrepeated
    unfold ofJson?
    rw [slots?_of_repeated hkey hrepeated]
    rfl

end Trigger

/-! ## Cards -/

namespace CardKind

/-- Reads a kind of card from the members of a card. -/
def ofMembers? (ms : List (String × Json)) : Option CardKind :=
  (field ["kind"] (required nameInCard?) ms).bind (ofRecord? · (.object ms))

/-- A unit has a lane and stats. -/
theorem ofRecord?_unit (ms : List (String × Json)) :
    ofRecord? "unit" (.object ms) = do
      let lane ← field ["lane"] (required Lane.ofField?) ms
      let stats ← field ["stats"] (required Stats.ofJson?) ms
      return .unit lane stats := by
  show (slots? [["lane"], ["stats"]] (.object ms)).bind _ = _
  rw [Json.slots?_cons, Json.slots?_cons]
  unfold field
  cases member? ["lane"] ms with
  | none => rfl
  | some lane =>
    cases member? ["stats"] ms with
    | none => exact (Option.bind_fun_none _).symm
    | some stats => rfl

/-- Other kinds of cards have nothing else. -/
theorem ofRecord?_of_ne {kind : String} (hkind : kind ≠ "unit") (ms ms' : List (String × Json)) :
    ofRecord? kind (.object ms) = ofRecord? kind (.object ms') := by
  unfold ofRecord?
  split
  · exact absurd rfl hkind
  · rfl
  · rfl

end CardKind

namespace Card

/-- The keys that belong to the kind of a card. -/
def kindKeys (ms : List (String × Json)) : List Key :=
  match field ["kind"] (required CardKind.nameInCard?) ms with
  | some "unit" => [["kind"], ["lane"], ["stats"]]
  | _ => [["kind"]]

/-- The keys that a card knows. -/
def knownKeys (ms : List (String × Json)) : List Key := ownKeys ++ kindKeys ms

/-- What may differ under a key of a card. -/
inductive Inside : String → Json → Json → Prop where
  | same (name : String) (v : Json) : Inside name v v
  | stats {v v' : Json} (h : Stats.Same v v') : Inside "stats" v v'
  | specials {v v' : Json} (h : Itemwise Special.Same v v') : Inside "specials" v v'
  | triggers {v v' : Json} (h : Itemwise Trigger.Same v v') : Inside "triggers" v v'

/-- Two values that differ in the order of the members of a card, its stats, specials, triggers and
their actions and in unknown members. -/
def Same : Json → Json → Prop :=
  Reordered knownKeys Inside fun v => v.readable = true

/-- A member that is none of the card's own is left to its kind. -/
theorem member?_otherMembers {key : Key} (hkey : ∀ name ∈ key, Unknown ownKeys name)
    (ms : List (String × Json)) : member? key (otherMembers ms) = member? key ms := by
  refine Json.member?_filter key _ ms fun m _ hm => ?_
  have hunknown := hkey m.1 (by simpa using hm)
  simpa [Unknown] using hunknown

/-- The kind of a card is read from its members. -/
theorem kind?_otherMembers (ms : List (String × Json)) :
    kind? (otherMembers ms) = CardKind.ofMembers? ms := by
  have hkind : member? ["kind"] (otherMembers ms) = member? ["kind"] ms :=
    member?_otherMembers (by decide) ms
  have hlane : member? ["lane"] (otherMembers ms) = member? ["lane"] ms :=
    member?_otherMembers (by decide) ms
  have hstats : member? ["stats"] (otherMembers ms) = member? ["stats"] ms :=
    member?_otherMembers (by decide) ms
  unfold kind? CardKind.ofMembers? field
  rw [hkind]
  cases member? ["kind"] ms with
  | none => rfl
  | some slot =>
    show (required CardKind.nameInCard? slot).bind _ = (required CardKind.nameInCard? slot).bind _
    congr 1
    funext kind
    by_cases hunit : kind = "unit"
    · rw [hunit, CardKind.ofRecord?_unit, CardKind.ofRecord?_unit]
      unfold field
      rw [hlane, hstats]
    · exact CardKind.ofRecord?_of_ne hunit _ _

/-- **A card is read field by field.** -/
theorem ofJson?_object (ms : List (String × Json)) :
    ofJson? (.object ms) = if Json.readableMembers (otherMembers ms) then do
      let id ← field ["id"] (required string?) ms
      let name ← field ["name"] (required string?) ms
      let faction ← field ["faction"] (withDefault "" string?) ms
      let role ← field ["role"] (withDefault "" string?) ms
      let cost ← field ["cost"] (withDefault 0 uint32?) ms
      let kind ← CardKind.ofMembers? ms
      let dirtyPower ← field ["dirtyPower", "dirty_power"] (optional uint32?) ms
      let keywords ← field ["keywords"] (withDefault [] (list? string?)) ms
      let specials ← field ["specials"] (withDefault [] (list? Special.ofJson?)) ms
      let triggers ← field ["triggers"] (withDefault [] (list? Trigger.ofJson?)) ms
      return { id, name, faction, role, cost, kind, dirtyPower, keywords, specials, triggers }
    else none := by
  have hnil : slots? [] (.object ms) = some [] := rfl
  simp only [ofJson?, ownKeys, Json.slots?_cons, hnil, kind?_otherMembers]
  cases Json.readableMembers (otherMembers ms) with
  | false => rfl
  | true =>
    simp only [Bool.not_true, Bool.false_eq_true, if_false, if_true]
    unfold field
    -- both sides are refused if one of the keys is given twice
    cases member? ["id"] ms with
    | none => rfl
    | some id =>
    cases member? ["name"] ms with
    | none => simp only [Option.bind_eq_bind, Option.bind_none, Option.bind_fun_none]
    | some name =>
    cases member? ["faction"] ms with
    | none =>
      simp only [Option.bind_eq_bind, Option.bind_some, Option.bind_none, Option.bind_fun_none]
    | some faction =>
    cases member? ["role"] ms with
    | none =>
      simp only [Option.bind_eq_bind, Option.bind_some, Option.bind_none, Option.bind_fun_none]
    | some role =>
    cases member? ["cost"] ms with
    | none =>
      simp only [Option.bind_eq_bind, Option.bind_some, Option.bind_none, Option.bind_fun_none]
    | some cost =>
    cases member? ["dirtyPower", "dirty_power"] ms with
    | none =>
      simp only [Option.bind_eq_bind, Option.bind_some, Option.bind_none, Option.bind_fun_none]
    | some dirtyPower =>
    cases member? ["keywords"] ms with
    | none =>
      simp only [Option.bind_eq_bind, Option.bind_some, Option.bind_none, Option.bind_fun_none]
    | some keywords =>
    cases member? ["specials"] ms with
    | none =>
      simp only [Option.bind_eq_bind, Option.bind_some, Option.bind_none, Option.bind_fun_none]
    | some specials =>
    cases member? ["triggers"] ms with
    | none =>
      simp only [Option.bind_eq_bind, Option.bind_some, Option.bind_none, Option.bind_fun_none]
    | some triggers => simp only [Option.bind_eq_bind, Option.bind_some, Option.pure_def]

theorem Inside.eq {name : String} {v v' : Json} (h : Inside name v v')
    (hname : name ∉ ["stats", "specials", "triggers"]) : v = v' := by
  cases h with
  | same => rfl
  | stats | specials | triggers => exact absurd (by decide) hname

section

variable {ms ms' : List (String × Json)}
  (h : Rearranged Inside (fun name v => Unknown (knownKeys ms) name ∧ v.readable = true) ms ms')

include h

/-- A field with nothing inside is read alike. -/
theorem field_eq {α : Type} {read? : Option Json → Option α} {key : Key}
    (hkey : key ∈ knownKeys ms) (hname : ∀ name ∈ key, name ∉ ["stats", "specials", "triggers"]) :
    field key read? ms = field key read? ms' := by
  refine h.field (fun _ _ hm => hm.1 key hkey) fun name hmem v v' hv => ?_
  rw [hv.eq (hname name hmem)]

/-- What is left to the kind is readable alike. -/
theorem readableMembers_otherMembers_eq :
    Json.readableMembers (otherMembers ms) = Json.readableMembers (otherMembers ms') := by
  refine (h.filter fun name => !ownKeys.any (·.contains name)).readable (fun name v v' hv => ?_)
    fun name v hm => hm.1.2
  obtain ⟨hv, hown⟩ := hv
  cases hv with
  | same => rfl
  | stats hv => exact hv.readable (fun _ _ _ heq => heq ▸ rfl) fun _ hskipped => hskipped
  | specials | triggers => exact absurd hown (by decide)

/-- The kind is read alike. -/
theorem ofMembers?_eq : CardKind.ofMembers? ms = CardKind.ofMembers? ms' := by
  have hkind : field ["kind"] (required CardKind.nameInCard?) ms =
      field ["kind"] (required CardKind.nameInCard?) ms' := by
    refine field_eq h ?_ (by decide)
    unfold knownKeys kindKeys
    split <;> decide
  unfold CardKind.ofMembers?
  rw [← hkind]
  cases hk : field ["kind"] (required CardKind.nameInCard?) ms with
  | none => rfl
  | some kind =>
    show CardKind.ofRecord? kind (.object ms) = CardKind.ofRecord? kind (.object ms')
    by_cases hunit : kind = "unit"
    · subst hunit
      have hkeys : knownKeys ms = ownKeys ++ [["kind"], ["lane"], ["stats"]] := by
        simp only [knownKeys, kindKeys, hk]
      have hlane : field ["lane"] (required Lane.ofField?) ms =
          field ["lane"] (required Lane.ofField?) ms' :=
        field_eq h (hkeys ▸ by decide) (by decide)
      have hstats : field ["stats"] (required Stats.ofJson?) ms =
          field ["stats"] (required Stats.ofJson?) ms' := by
        refine h.field (fun _ _ hm => hm.1 _ (hkeys ▸ by decide)) fun name hname v v' hv => ?_
        cases hv with
        | same => rfl
        | stats hv => exact Stats.ignoresOrder.agrees v v' hv
        | specials | triggers => exact absurd hname (by decide)
      rw [CardKind.ofRecord?_unit, CardKind.ofRecord?_unit, hlane, hstats]
    · exact CardKind.ofRecord?_of_ne hunit ms ms'

end

/-- The kind is refused if one of its keys is given twice. -/
theorem ofMembers?_of_repeated {ms : List (String × Json)} {key : Key} (hkey : key ∈ kindKeys ms)
    (hrepeated : Repeated key ms) : CardKind.ofMembers? ms = none := by
  unfold CardKind.ofMembers?
  unfold kindKeys at hkey
  split at hkey
  · rename_i hk
    have hkeys : key = ["kind"] ∨ key = ["lane"] ∨ key = ["stats"] := by simpa using hkey
    rw [hk]
    rcases hkeys with rfl | rfl | rfl
    · rw [field_of_repeated _ hrepeated] at hk
      cases hk
    · show CardKind.ofRecord? "unit" (.object ms) = none
      rw [CardKind.ofRecord?_unit, field_of_repeated _ hrepeated]
      rfl
    · show CardKind.ofRecord? "unit" (.object ms) = none
      rw [CardKind.ofRecord?_unit, field_of_repeated _ hrepeated]
      exact Option.bind_fun_none _
  · rw [List.mem_singleton] at hkey
    subst hkey
    rw [field_of_repeated _ hrepeated]
    rfl

theorem ignoresOrder : IgnoresOrder ofJson? knownKeys Same where
  agrees := by
    intro v v' h
    cases h with
    | same => rfl
    | @object ms ms' h =>
      have hplain : ∀ key ∈ ownKeys, (∀ name ∈ key, name ∉ ["stats", "specials", "triggers"]) →
          ∀ {α : Type} (read? : Option Json → Option α), field key read? ms = field key read? ms' :=
        fun key hkey hname α read? => field_eq h (List.mem_append_left _ hkey) hname
      have hspecials : field ["specials"] (withDefault [] (list? Special.ofJson?)) ms =
          field ["specials"] (withDefault [] (list? Special.ofJson?)) ms' := by
        refine h.field (fun _ _ hm => hm.1 _ (List.mem_append_left _ (by decide)))
          fun name hname v v' hv => ?_
        cases hv with
        | same => rfl
        | specials hv => exact hv.list? Special.ignoresOrder.agrees
        | stats | triggers => exact absurd hname (by decide)
      have htriggers : field ["triggers"] (withDefault [] (list? Trigger.ofJson?)) ms =
          field ["triggers"] (withDefault [] (list? Trigger.ofJson?)) ms' := by
        refine h.field (fun _ _ hm => hm.1 _ (List.mem_append_left _ (by decide)))
          fun name hname v v' hv => ?_
        cases hv with
        | same => rfl
        | triggers hv => exact hv.list? Trigger.ignoresOrder.agrees
        | stats | specials => exact absurd hname (by decide)
      rw [ofJson?_object, ofJson?_object, readableMembers_otherMembers_eq h, ofMembers?_eq h,
        hspecials, htriggers, hplain ["id"] (by decide) (by decide),
        hplain ["name"] (by decide) (by decide), hplain ["faction"] (by decide) (by decide),
        hplain ["role"] (by decide) (by decide), hplain ["cost"] (by decide) (by decide),
        hplain ["dirtyPower", "dirty_power"] (by decide) (by decide),
        hplain ["keywords"] (by decide) (by decide)]
  refuses := by
    intro ms key hkey hrepeated
    rcases List.mem_append.1 hkey with hkey | hkey
    · simp only [ofJson?, slots?_of_repeated hkey hrepeated]
      split <;> rfl
    · rw [ofJson?_object, ofMembers?_of_repeated hkey hrepeated]
      simp

end Card

/-! ## All of them -/

/-- The keys of settings. -/
def Settings.keys : List Key := [["attack_penalty"], ["source_tag"]]

/-- Two values that differ in the order of the members of a record and in unknown members. -/
def SameRecord (keys : List Key) : Json → Json → Prop :=
  Reordered (fun _ => keys) (fun _ => Eq) fun _ => True

/-- **Decoding ignores the order of members and unknown members.**  Cards, their triggers, actions
and specials, units, settings and the judge's inputs are refused or read as the same whatever the
order of members, at any depth, and whatever unknown members stand among them; what is skipped in a
card, in its stats, in an action and in a special must be readable, elsewhere it may be anything.  A
known key that is given twice, in one spelling or in two, is refused wherever it stands. -/
theorem decoding_ignores_order :
    IgnoresOrder Card.ofJson? Card.knownKeys Card.Same ∧
    IgnoresOrder Trigger.ofJson? (fun _ => Trigger.keys) Trigger.Same ∧
    IgnoresOrder Action.ofJson? (Json.taggedKeys Action.keysNamed) Action.Same ∧
    IgnoresOrder Special.ofJson? (Json.taggedKeys Special.keysNamed) Special.Same ∧
    IgnoresOrder BoardUnit.ofJson? (fun _ => BoardUnit.keys) (SameRecord BoardUnit.keys) ∧
    IgnoresOrder Settings.ofJson? (fun _ => Settings.keys) (SameRecord Settings.keys) ∧
    IgnoresOrder JudgeInputs.ofJson? (fun _ => JudgeInputs.keys) (SameRecord JudgeInputs.keys) :=
  ⟨Card.ignoresOrder, Trigger.ignoresOrder, Action.ignoresOrder, Special.ignoresOrder,
    .of_record fun _ => rfl, .of_record fun _ => rfl, .of_record fun _ => rfl⟩

/-- An action with its kind in front, and backwards with a member that it does not know. -/
def drawOne : List (String × Json) := [("kind", .string "draw_card"), ("amount", .integer 1)]

def drawOne' : List (String × Json) := List.reverse (drawOne ++ [("target", .null)])

/-- A trigger with an action, and backwards with an unreadable member. -/
def drawOnHit (action : List (String × Json)) : List (String × Json) :=
  [("when", .string "on_hit"), ("actions", .array [.object action])]

def drawOnHit' : List (String × Json) := List.reverse (drawOnHit drawOne' ++ [("x", .unreadable)])

/-- A card with a trigger, and backwards with a member that belongs to another kind of card. -/
def drawingCard (trigger : List (String × Json)) : List (String × Json) :=
  [("kind", .string "non_unit"), ("id", .string "a"), ("name", .string "A"),
    ("triggers", .array [.object trigger])]

def drawingCard' : List (String × Json) :=
  List.reverse (drawingCard drawOnHit' ++ [("lane", .integer 7)])

theorem decoding_ignores_order_drawingCard :
    Card.Same (.object (drawingCard (drawOnHit drawOne))) (.object drawingCard') ∧
    (Card.ofJson? (.object (drawingCard (drawOnHit drawOne)))).isSome = true ∧
    Card.ofJson? (.object (drawingCard (drawOnHit drawOne))) =
      Card.ofJson? (.object drawingCard') ∧
    Card.ofJson? (.object (drawingCard drawOnHit' ++
      [("dirty_power", .integer 1), ("dirtyPower", .integer 1)])) = none := by
  have haction : Action.Same (.object drawOne) (.object drawOne') := by
    refine .object ⟨_, _, .cons ⟨rfl, rfl⟩ (.cons ⟨rfl, rfl⟩ .nil), ?_, List.reverse_perm _⟩
    exact List.forall_mem_singleton.2 ⟨by decide +kernel, rfl⟩
  have htrigger : Trigger.Same (.object (drawOnHit drawOne)) (.object drawOnHit') := by
    refine .record (.object ⟨drawOnHit drawOne', _,
      .cons ⟨rfl, .same _ _⟩ (.cons ⟨rfl, .actions ?_⟩ .nil), ?_, List.reverse_perm _⟩)
    · exact .array (.cons haction .nil)
    · exact List.forall_mem_singleton.2 ⟨by decide +kernel, trivial⟩
  have hcard : Card.Same (.object (drawingCard (drawOnHit drawOne))) (.object drawingCard') := by
    refine .object ⟨drawingCard drawOnHit', _,
      .cons ⟨rfl, .same _ _⟩ (.cons ⟨rfl, .same _ _⟩ (.cons ⟨rfl, .same _ _⟩
        (.cons ⟨rfl, .triggers ?_⟩ .nil))), ?_, List.reverse_perm _⟩
    · exact .array (.cons htrigger .nil)
    · exact List.forall_mem_singleton.2 ⟨by decide +kernel, rfl⟩
  refine ⟨hcard, by decide +kernel, decoding_ignores_order.1.agrees _ _ hcard, ?_⟩
  refine decoding_ignores_order.1.refuses _ ["dirtyPower", "dirty_power"]
    (List.mem_append_left _ (by decide)) ?_
  exact ⟨_, _, List.sublist_append_right _ _, by decide, by decide⟩

/-- **A card notices an unknown member that is unreadable.**  The text of a card is refused once a
number that no float is near stands in it, although under a name that cards do not know. -/
theorem unreadable_member_refused :
    Unknown (Card.knownKeys [("id", .string "n"), ("name", .string "N"),
      ("kind", .string "non_unit")]) "x" ∧
    ((Json.parse? "\x7b\"id\":\"n\",\"name\":\"N\",\"kind\":\"non_unit\"\x7d").bind
      Card.ofJson?).isSome = true ∧
    (Json.parse? "\x7b\"id\":\"n\",\"name\":\"N\",\"kind\":\"non_unit\",\"x\":1e999\x7d").isSome =
      true ∧
    (Json.parse? "\x7b\"id\":\"n\",\"name\":\"N\",\"kind\":\"non_unit\",\"x\":1e999\x7d").bind
      Card.ofJson? = none := by
  refine ⟨by decide +kernel, by decide +kernel, by decide +kernel, ?_⟩
  rw [← Option.isNone_iff_eq_none]
  decide +kernel

end CardDuel
