import CardDuel.Codec.Names

/-!
# Fields that are read back

A record is written as the members of those of its fields that are there, each under the first
spelling of its key.  If no spelling belongs to two keys, its slots are found again, and from its
slots a record is read field by field.

* `written` — the members of a record with some slots.
* `slots?_written` — the slots are found again; `slots?_unknown_append` — also behind other members.
* `tagged?_written`, `slots?_tagged` — so are the kind and the slots of a tagged value.
* `list?_ofList`, `optional_map`, `optional_ofOption`, `withDefault_slotOfList` — what a field holds
  is read back if its parts are.
-/

set_option autoImplicit false

namespace CardDuel.Json

/-! ## Slots -/

/-- The spelling that a key is written with. -/
def spelling (key : Key) : String := key.headD ""

/-- Every key has a spelling, and none belongs to two keys. -/
def Apart (keys : List Key) : Prop :=
  (∀ key ∈ keys, key ≠ []) ∧ keys.Pairwise fun key key' => ∀ name ∈ key, name ∉ key'

instance (keys : List Key) : Decidable (Apart keys) :=
  inferInstanceAs (Decidable (_ ∧ _))

/-- The members of a record with the given keys: those of the fields that are there. -/
def written : List Key → Slots → List (String × Json)
  | key :: keys, some v :: slots => (spelling key, v) :: written keys slots
  | _ :: keys, none :: slots => written keys slots
  | _, _ => []

variable {key : Key} {keys : List Key} {slots : Slots} {m : String × Json}
  {ms : List (String × Json)}

@[simp]
theorem written_nil (keys : List Key) : written keys [] = [] := by
  cases keys <;> rfl

theorem spelling_mem (h : key ≠ []) : spelling key ∈ key := by
  cases key with
  | nil => exact absurd rfl h
  | cons name names => exact List.mem_cons_self

/-- What is written stands under the spelling of one of the keys and is one of the values. -/
theorem mem_written (hm : m ∈ written keys slots) :
    (∃ key ∈ keys, m.1 = spelling key) ∧ some m.2 ∈ slots := by
  induction keys generalizing slots with
  | nil => cases slots <;> cases hm
  | cons key keys ih =>
    match slots with
    | [] => cases hm
    | none :: slots =>
      obtain ⟨⟨key', hkey', hname⟩, hvalue⟩ := ih hm
      exact ⟨⟨key', .tail _ hkey', hname⟩, .tail _ hvalue⟩
    | some v :: slots =>
      rcases List.mem_cons.1 hm with rfl | hm
      · exact ⟨⟨key, .head _, rfl⟩, .head _⟩
      · obtain ⟨⟨key', hkey', hname⟩, hvalue⟩ := ih hm
        exact ⟨⟨key', .tail _ hkey', hname⟩, .tail _ hvalue⟩

/-- The names of the members of an object. -/
def names : Json → List String
  | .object ms => ms.map Prod.fst
  | _ => []

theorem names_cons (m : String × Json) (ms : List (String × Json)) :
    (Json.object (m :: ms)).names = m.1 :: (Json.object ms).names := rfl

theorem names_append (ms ms' : List (String × Json)) :
    (Json.object (ms ++ ms')).names = (Json.object ms).names ++ (Json.object ms').names :=
  List.map_append

/-- The name of a key is written exactly if there is something in its slot. -/
theorem mem_names_written_iff {name : String} :
    name ∈ (Json.object (written keys slots)).names ↔
      ∃ field ∈ keys.zip slots, spelling field.1 = name ∧ field.2.isSome = true := by
  induction keys generalizing slots with
  | nil => simp [written, names]
  | cons key keys ih =>
    match slots with
    | [] => simp [names]
    | none :: slots =>
      rw [written, ih]
      simp
    | some v :: slots =>
      rw [written, List.zip_cons_cons]
      simp only [List.mem_cons, exists_eq_or_imp, ← ih]
      simp only [names, List.map_cons, List.mem_cons]
      exact or_congr ⟨fun h => ⟨h.symm, rfl⟩, fun h => h.1.symm⟩ Iff.rfl

/-- What is written for the first keys stands before the rest. -/
theorem written_take_append_drop (n : Nat) (keys : List Key) (slots : Slots) :
    written (keys.take n) (slots.take n) ++ written (keys.drop n) (slots.drop n) =
      written keys slots := by
  induction n generalizing keys slots with
  | zero => rfl
  | succ n ih =>
    match keys, slots with
    | [], _ => rfl
    | _ :: _, [] => simp
    | _ :: keys, none :: slots => exact ih keys slots
    | _ :: keys, some v :: slots => exact congrArg (_ :: ·) (ih keys slots)

/-- A member under another key is not looked at. -/
theorem member?_cons_of_notMem (hm : m.1 ∉ key) (ms : List (String × Json)) :
    member? key (m :: ms) = member? key ms := by
  have hskip : (m :: ms).filter (fun m => key.contains m.1) =
      ms.filter fun m => key.contains m.1 :=
    List.filter_cons_of_neg (by simpa using hm)
  rw [member?, member?, hskip]

theorem member?_of_forall_notMem (hms : ∀ m ∈ ms, m.1 ∉ key) : member? key ms = some none := by
  induction ms with
  | nil => rfl
  | cons m ms ih =>
    obtain ⟨hm, hms⟩ := List.forall_mem_cons.1 hms
    rw [member?_cons_of_notMem hm, ih hms]

/-- A member whose key is not given again is found. -/
theorem member?_cons_of_mem (hm : m.1 ∈ key) (hms : ∀ m' ∈ ms, m'.1 ∉ key) :
    member? key (m :: ms) = some (some m.2) := by
  have hrest : ms.filter (fun m => key.contains m.1) = [] := by
    rw [List.filter_eq_nil_iff]
    intro m' hm'
    simpa using hms m' hm'
  have honly : (m :: ms).filter (fun m => key.contains m.1) = [m] := by
    rw [← hrest]
    exact List.filter_cons_of_pos (by simpa using hm)
  rw [member?, honly]

theorem slots?_cons (key : Key) (keys : List Key) (ms : List (String × Json)) :
    slots? (key :: keys) (.object ms) = do
      let slot ← member? key ms
      let slots ← slots? keys (.object ms)
      return slot :: slots :=
  List.mapM_cons

/-- The slots depend on what is found under each key alone. -/
theorem slots?_congr {ms' : List (String × Json)}
    (h : ∀ key ∈ keys, member? key ms = member? key ms') :
    slots? keys (.object ms) = slots? keys (.object ms') := by
  induction keys with
  | nil => rfl
  | cons key keys ih =>
    obtain ⟨hkey, hkeys⟩ := List.forall_mem_cons.1 h
    rw [slots?_cons, slots?_cons, hkey, ih hkeys]

/-- Members under unknown keys are not looked at. -/
theorem slots?_unknown_append (hms : ∀ m ∈ ms, ∀ key ∈ keys, m.1 ∉ key)
    (ms' : List (String × Json)) :
    slots? keys (.object (ms ++ ms')) = slots? keys (.object ms') := by
  induction ms with
  | nil => rfl
  | cons m ms ih =>
    obtain ⟨hm, hms⟩ := List.forall_mem_cons.1 hms
    rw [List.cons_append, ← ih hms]
    exact slots?_congr fun key hkey => member?_cons_of_notMem (hm key hkey) _

theorem Apart.tail (h : Apart (key :: keys)) : Apart keys :=
  ⟨(List.forall_mem_cons.1 h.1).2, (List.pairwise_cons.1 h.2).2⟩

/-- What is written for other keys stands under none of the spellings of this one. -/
theorem Apart.notMem_of_mem_written (h : Apart (key :: keys)) (hm : m ∈ written keys slots) :
    m.1 ∉ key := by
  obtain ⟨⟨key', hkey', hname⟩, -⟩ := mem_written hm
  intro hmem
  refine (List.pairwise_cons.1 h.2).1 key' hkey' m.1 hmem ?_
  rw [hname]
  exact spelling_mem (h.1 key' (.tail _ hkey'))

/-- A member under this key does not matter for the other keys. -/
theorem Apart.slots?_cons_of_mem (h : Apart (key :: keys)) (hm : m.1 ∈ key)
    (ms : List (String × Json)) : slots? keys (.object (m :: ms)) = slots? keys (.object ms) := by
  obtain ⟨hothers, -⟩ := List.pairwise_cons.1 h.2
  exact slots?_congr fun key' hkey' => member?_cons_of_notMem (hothers key' hkey' m.1 hm) ms

/-- **The slots of a record are found again** in what is written. -/
theorem slots?_written (hkeys : Apart keys) (hlength : slots.length = keys.length) :
    slots? keys (.object (written keys slots)) = some slots := by
  induction keys generalizing slots with
  | nil =>
    rw [List.length_eq_zero_iff.1 hlength]
    rfl
  | cons key keys ih =>
    match slots, hlength with
    | slot :: slots, hlength =>
      have hrest := ih hkeys.tail (Nat.succ.inj hlength)
      have hforeign : ∀ m ∈ written keys slots, m.1 ∉ key :=
        fun m hm => hkeys.notMem_of_mem_written hm
      cases slot with
      | none =>
        rw [slots?_cons, written, member?_of_forall_notMem hforeign, hrest]
        rfl
      | some v =>
        have hmem : (spelling key, v).1 ∈ key := spelling_mem (hkeys.1 key List.mem_cons_self)
        rw [slots?_cons, written, member?_cons_of_mem hmem hforeign, hkeys.slots?_cons_of_mem hmem,
          hrest]
        rfl

/-! ## Tags -/

theorem member?_kind_written (hkeys : Apart (["kind"] :: keys)) (slots : Slots) (kind : Json) :
    member? ["kind"] (("kind", kind) :: written keys slots) = some (some kind) := by
  have hmem : ("kind", kind).1 ∈ ["kind"] := List.mem_singleton_self _
  exact member?_cons_of_mem hmem fun m hm => hkeys.notMem_of_mem_written hm

/-- **The kind of a tagged value is found again**, with the record that it stands in. -/
theorem tagged?_written (hkeys : Apart (["kind"] :: keys))
    (hslots : ∀ v, some v ∈ slots → v.readable = true) (kind : String) :
    tagged? (.object (("kind", .string kind) :: written keys slots)) =
      some (kind, .object (("kind", .string kind) :: written keys slots)) := by
  have hreadable : (Json.object (("kind", .string kind) :: written keys slots)).readable = true :=
    (readable_object_iff _).2 (List.forall_mem_cons.2
      ⟨rfl, fun m hm => hslots m.2 (mem_written hm).2⟩)
  rw [tagged?, if_pos hreadable]
  simp only [member?_kind_written hkeys]
  rfl

/-- The slots of a tagged value are found again behind its kind. -/
theorem slots?_tagged (hkeys : Apart (["kind"] :: keys)) (hlength : slots.length = keys.length)
    (kind : Json) : slots? keys (.object (("kind", kind) :: written keys slots)) = some slots := by
  have hmem : ("kind", kind).1 ∈ ["kind"] := List.mem_singleton_self _
  rw [hkeys.slots?_cons_of_mem hmem, slots?_written hkeys.tail hlength]

/-! ## What a field holds -/

section

variable {α : Type} {read? : Json → Option α} {write : α → Json}

@[simp]
theorem required_some (v : Json) : required read? (some v) = read? v := rfl

@[simp]
theorem withDefault_some (default : α) (v : Json) : withDefault default read? (some v) = read? v :=
  rfl

@[simp]
theorem string?_string (s : String) : string? (.string s) = some s := rfl

/-- A record whose next field is read is read if the rest is.  Long records are read with it field
by field: simplified at once, they would have the bounds of their integers evaluated. -/
theorem read_field {β γ : Type} {x : Option β} {f : β → Option γ} {b : β} {c : γ}
    (hfield : x = some b) (hrest : f b = some c) : x >>= f = some c := by
  rw [hfield]
  exact hrest

theorem required_of_read {v : Json} {a : α} (h : read? v = some a) :
    required read? (some v) = some a := h

theorem withDefault_of_read {default : α} {v : Json} {a : α} (h : read? v = some a) :
    withDefault default read? (some v) = some a := h

/-- What is read is not the `null` that stands for none. -/
theorem nullable?_of_read (hnull : read? .null = none) {v : Json} {a : α}
    (h : read? v = some a) : nullable? read? v = some (some a) := by
  cases v with
  | null => cases hnull.symm.trans h
  | _ => simp only [nullable?, h, Option.map_some]

/-- A value that may be missing is read back. -/
theorem optional_map (hnull : read? .null = none) {o : Option α}
    (h : ∀ a ∈ o, read? (write a) = some a) : optional read? (o.map write) = some o := by
  cases o with
  | none => rfl
  | some a => exact nullable?_of_read hnull (h a rfl)

/-- A value that may be `null` is read back. -/
theorem optional_ofOption (hnull : read? .null = none) {o : Option α}
    (h : ∀ a ∈ o, read? (write a) = some a) :
    optional read? (some (ofOption write o)) = some o := by
  cases o with
  | none => rfl
  | some a => exact nullable?_of_read hnull (h a rfl)

/-- A list is read back if its items are. -/
theorem list?_ofList {xs : List α} (h : ∀ a ∈ xs, read? (write a) = some a) :
    list? read? (ofList write xs) = some xs := by
  show (xs.map write).mapM read? = some xs
  induction xs with
  | nil => rfl
  | cons a xs ih =>
    obtain ⟨ha, hxs⟩ := List.forall_mem_cons.1 h
    rw [List.map_cons, List.mapM_cons, ha, ih hxs]
    rfl

/-- The slot of a list that is missing if it is empty. -/
def slotOfList (write : α → Json) (xs : List α) : Option Json :=
  if xs.isEmpty then none else some (ofList write xs)

@[simp]
theorem isSome_slotOfList (xs : List α) : (slotOfList write xs).isSome = true ↔ xs ≠ [] := by
  cases xs <;> simp [slotOfList]

/-- A list that may be missing is read back. -/
theorem withDefault_slotOfList {xs : List α} (h : ∀ a ∈ xs, read? (write a) = some a) :
    withDefault [] (list? read?) (slotOfList write xs) = some xs := by
  cases xs with
  | nil => rfl
  | cons a xs => exact list?_ofList h

end

/-- A finite float is read back. -/
theorem float?_ofFloat {x : Float} (h : x.isFinite = true) : float? (ofFloat x) = some x := by
  rw [ofFloat, if_pos h, float?]

theorem readable_ofFloat (x : Float) : (ofFloat x).readable = true := by
  unfold ofFloat
  split <;> rfl

theorem readable_of_map {α : Type} {write : α → Json} (h : ∀ a, (write a).readable = true)
    {o : Option α} {v : Json} (hv : some v = o.map write) : v.readable = true := by
  obtain ⟨a, -, rfl⟩ := Option.map_eq_some_iff.1 hv.symm
  exact h a

theorem readable_ofList {α : Type} {write : α → Json} {xs : List α}
    (h : ∀ a ∈ xs, (write a).readable = true) : (ofList write xs).readable = true := by
  rw [ofList, readable_array_iff]
  exact List.forall_mem_map.2 h

end CardDuel.Json
