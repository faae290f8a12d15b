import CardDuel.Proofs.Sandbox.Sources

/-!
# Applications that still count

Of a status the sandbox records one expiry and one strength, the latest and the greatest that were
asked for.  Only a cleanse that removes the status takes them away; the turn going by does not.  So
what is recorded gathers every application since the last removal, those that have run out included.

* `Standing` — an application has landed and no cleanse has removed the status since.
* `Remains` — something holds of an application that still counts, or of the record from before the
  history; `remains_of_inflicts`, `remains_of_lifts` and `remains_of_neither` say how one more
  moment changes it.
* `Gathers` — a record lasts as long as the longest application that still counts and is as strong
  as the strongest; `gathers_answer` and `gathers_played` keep it.
-/

set_option autoImplicit false

namespace CardDuel

/-- A status is recorded at least to a turn. -/
def Record.Lasts (r : Record) (turn : Nat) : Prop := ∃ e, r.expiry = some e ∧ turn ≤ e.toNat

/-- A status is asked for at least to a turn. -/
def Request.Lasts (q : Request) (turn : Nat) : Prop := ∃ e, q.expiry? = some e ∧ turn ≤ e.toNat

/-- Of two expiries the later one stands. -/
theorem BoardUnit.exists_later_iff (old : Option UInt32) (new : UInt32) (turn : Nat) :
    (∃ e, later old new = some e ∧ turn ≤ e.toNat) ↔
      (∃ e, old = some e ∧ turn ≤ e.toNat) ∨ turn ≤ new.toNat := by
  cases old with
  | none => simp [later]
  | some limit => simp [later, UInt32.toNat_max]

/-- The new one stands alone unless the old one is later. -/
theorem BoardUnit.later_eq_some_iff (old : Option UInt32) (new : UInt32) :
    later old new = some new ↔ ¬ ∃ e, old = some e ∧ new < e := by
  cases old with
  | none => simp [later]
  | some limit =>
    have hmax := UInt32.toNat_max limit new
    simp only [later, Option.some.injEq, exists_eq_left']
    rw [← UInt32.toNat_inj, UInt32.lt_iff_toNat_lt, hmax]
    omega

namespace Record

variable {r : Record} {q : Request} {mark : Mark}

/-- An application and the record before it: the longer of them counts. -/
theorem lasts_renewed (hq : q.afflicts? = some mark) (turn : Nat) :
    (r.renewed q).Lasts turn ↔ r.Lasts turn ∨ q.Lasts turn := by
  obtain ⟨limit, hlimit⟩ : ∃ limit, q.expiry? = some limit := by
    cases q with
    | applyStun | applyExposed | applyAttackPenalty => exact ⟨_, rfl⟩
    | _ => cases hq
  have hrenewed : (r.renewed q).expiry = BoardUnit.later r.expiry limit := by
    rw [renewed, hlimit]
    rfl
  have hasked : q.Lasts turn ↔ turn ≤ limit.toNat := by
    simp [Request.Lasts, hlimit]
  rw [Lasts, hrenewed, BoardUnit.exists_later_iff, hasked]
  rfl

/-- An application and the record before it: the stronger of them counts. -/
theorem lt_magnitude_renewed (r : Record) (q : Request) (n : UInt32) :
    n < (r.renewed q).magnitude ↔ n < r.magnitude ∨ n < q.strength := by
  have hmax := UInt32.toNat_max r.magnitude q.strength
  simp only [renewed, UInt32.lt_iff_toNat_lt, hmax]
  omega

end Record

theorem Moment.not_lifts_of_inflicts {m : Moment Sandbox} {mark : Mark} (h : m.Inflicts mark) :
    ¬ m.Lifts mark := by
  rintro ⟨statuses, u, hq, -⟩
  have hasked := h.asked
  rw [hq] at hasked
  cases hasked

namespace Sandbox

/-! ## Histories -/

/-- No cleanse of a history removed the status. -/
def Unlifted (mark : Mark) (history : List (Moment Sandbox)) : Prop :=
  ∀ m ∈ history, ¬ m.Lifts mark

/-- A request of a history put the status on the unit, and no cleanse has removed it since. -/
def Standing (mark : Mark) (history : List (Moment Sandbox)) (q : Request) : Prop :=
  ∃ earlier m later, history = earlier ++ m :: later ∧ m.Inflicts mark ∧ m.request = q ∧
    ∀ m' ∈ later, ¬ m'.Lifts mark

/-- Something holds of an application that still counts.  What was recorded before the history
counts too as long as no cleanse has removed it. -/
def Remains (mark : Mark) (history : List (Moment Sandbox)) (first : Prop)
    (P : Request → Prop) : Prop :=
  Unlifted mark history ∧ first ∨ ∃ q, Standing mark history q ∧ P q

variable {mark : Mark} {history : List (Moment Sandbox)} {m : Moment Sandbox} {q : Request}

theorem unlifted_concat_iff :
    Unlifted mark (history ++ [m]) ↔ Unlifted mark history ∧ ¬ m.Lifts mark := by
  rw [Unlifted, List.forall_mem_append, List.forall_mem_singleton]
  rfl

/-- The last application counts, and an earlier one does unless the last request removes it. -/
theorem standing_concat_iff : Standing mark (history ++ [m]) q ↔
    m.Inflicts mark ∧ m.request = q ∨ Standing mark history q ∧ ¬ m.Lifts mark := by
  unfold Standing
  rw [exists_split_concat_iff]
  refine or_congr (by simp) ?_
  constructor
  · rintro ⟨earlier, first, later, rfl, hinflicts, hq, hlater⟩
    obtain ⟨hbetween, hlast⟩ := List.forall_mem_append.1 hlater
    exact ⟨⟨earlier, first, later, rfl, hinflicts, hq, hbetween⟩,
      hlast m (List.mem_singleton_self m)⟩
  · rintro ⟨⟨earlier, first, later, rfl, hinflicts, hq, hlater⟩, hlast⟩
    refine ⟨earlier, first, later, rfl, hinflicts, hq, ?_⟩
    exact List.forall_mem_append.2 ⟨hlater, List.forall_mem_singleton.2 hlast⟩

section

variable {first : Prop} {P : Request → Prop}

theorem remains_nil : Remains mark [] first P ↔ first := by
  have hnone (q : Request) : ¬ Standing mark [] q := by
    rintro ⟨earlier, m, later, hsplit, -⟩
    cases earlier <;> cases hsplit
  simp [Remains, Unlifted, hnone]

/-- **One more application counts beside the others.** -/
theorem remains_of_inflicts (h : m.Inflicts mark) :
    Remains mark (history ++ [m]) first P ↔ Remains mark history first P ∨ P m.request := by
  have hstays := Moment.not_lifts_of_inflicts h
  have hstanding (q : Request) : Standing mark (history ++ [m]) q ↔
      m.request = q ∨ Standing mark history q := by
    rw [standing_concat_iff]
    simp [h, hstays]
  have hunlifted : Unlifted mark (history ++ [m]) ↔ Unlifted mark history := by
    rw [unlifted_concat_iff]
    simp [hstays]
  simp only [Remains, hunlifted, hstanding, or_and_right, exists_or, exists_eq_left']
  exact (or_congr_right or_comm).trans or_assoc.symm

/-- **A removal leaves nothing that counts.** -/
theorem remains_of_lifts (h : m.Lifts mark) : ¬ Remains mark (history ++ [m]) first P := by
  have hnew : ¬ m.Inflicts mark := fun hinflicts => Moment.not_lifts_of_inflicts hinflicts h
  rintro (⟨hunlifted, -⟩ | ⟨q, hstanding, -⟩)
  · exact (unlifted_concat_iff.1 hunlifted).2 h
  · rcases standing_concat_iff.1 hstanding with ⟨hinflicts, -⟩ | ⟨-, hstays⟩
    · exact hnew hinflicts
    · exact hstays h

/-- **Any other request changes nothing.** -/
theorem remains_of_neither (hinflicts : ¬ m.Inflicts mark) (hlifts : ¬ m.Lifts mark) :
    Remains mark (history ++ [m]) first P ↔ Remains mark history first P := by
  simp only [Remains, unlifted_concat_iff, standing_concat_iff, hinflicts, hlifts, false_and,
    false_or, not_false_eq_true, and_true]

end

/-! ## Records -/

/-- A record gathers a history that began with another record: it lasts as long as the longest
application that still counts, and is as strong as the strongest. -/
structure Gathers (mark : Mark) (first : Record) (history : List (Moment Sandbox))
    (r : Record) : Prop where
  lasts : ∀ turn, r.Lasts turn ↔ Remains mark history (first.Lasts turn) (·.Lasts turn)
  strong : ∀ n, n < r.magnitude ↔ Remains mark history (n < first.magnitude) (n < ·.strength)

variable {first r : Record} {s : Sandbox}

theorem gathers_nil (mark : Mark) (first : Record) : Gathers mark first [] first where
  lasts _ := remains_nil.symm
  strong _ := remains_nil.symm

/-- What a request for the status makes of the record tells the request too. -/
theorem gathers_renewed (h : Gathers mark first history r) (hm : m.Inflicts mark) :
    Gathers mark first (history ++ [m]) (r.renewed m.request) where
  lasts turn := by
    rw [Record.lasts_renewed hm.asked, remains_of_inflicts hm, h.lasts]
  strong n := by
    rw [Record.lt_magnitude_renewed, remains_of_inflicts hm, h.strong]

theorem gathers_blank (first : Record) (history : List (Moment Sandbox)) (hm : m.Lifts mark) :
    Gathers mark first (history ++ [m]) .blank where
  lasts turn := by
    refine iff_of_false ?_ (remains_of_lifts hm)
    rintro ⟨e, he, -⟩
    cases he
  strong n := iff_of_false UInt32.not_lt_zero (remains_of_lifts hm)

/-- **After a request the record gathers one moment more.** -/
theorem gathers_answer (hr : s.record? mark = some r) (h : Gathers mark first history r)
    (q : Request) : ∃ r', (answer q s).2.record? mark = some r' ∧
      Gathers mark first (history ++ [⟨q, s⟩]) r' := by
  by_cases hinflicts : (⟨q, s⟩ : Moment Sandbox).Inflicts mark
  · refine ⟨r.renewed q, ?_, gathers_renewed h hinflicts⟩
    rw [record?_of_landed hinflicts.asked hinflicts.lands, hr]
    rfl
  · by_cases hlifts : (⟨q, s⟩ : Moment Sandbox).Lifts mark
    · exact ⟨.blank, record?_of_lifts hlifts, gathers_blank first history hlifts⟩
    · refine ⟨r, ?_, fun turn => ?_, fun n => ?_⟩
      · rcases record?_answer_cases q s mark with hsame | hnow | ⟨hnow, -⟩
        · exact hsame.trans hr
        · exact absurd hnow hinflicts
        · exact absurd hnow hlifts
      · rw [remains_of_neither hinflicts hlifts, h.lasts]
      · rw [remains_of_neither hinflicts hlifts, h.strong]

/-- **Whatever is played, a unit that is left to the requests has the record that gathers all that
was asked on the way.** -/
theorem gathers_played {plays : List Play} (hplays : Along (Play.Spares mark.unit) plays s)
    (hfirst : s.record? mark = some first) :
    ∃ r, (played plays s).record? mark = some r ∧ Gathers mark first (asked plays s) r := by
  refine told_along
    (R := fun history t => ∃ r, t.record? mark = some r ∧ Gathers mark first history r)
    ?_ ?_ hplays ⟨first, hfirst, gathers_nil mark first⟩
  · rintro history q t ⟨r, hr, hgathers⟩
    exact gathers_answer hr hgathers q
  · rintro history p t hspares hp ⟨r, hr, hgathers⟩
    refine ⟨r, ?_, hgathers⟩
    rw [record?_of_dossier? (dossier?_of_spared hp hspares), hr]

end Sandbox

end CardDuel
