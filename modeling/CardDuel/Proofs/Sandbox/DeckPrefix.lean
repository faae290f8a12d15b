import CardDuel.Proofs.Sandbox.TruthfulLog

/-!
# Drawing from a deck

A firing draws card by card and stops where the deck ends.  What comes of it is a prefix of the deck
at the end of the hand.

* `Holdings.drawn` — the piles after some cards were drawn.
* `run_resolve_drawCard` — a draw of any amount, in closed form.
* `draw_moves_prefix` — which cards go where, what is told, and what stays.
-/

set_option autoImplicit false

namespace CardDuel

namespace Holdings

/-- What a side has after the top cards of its deck went to its hand, in order. -/
def drawn (holdings : Holdings) (k : Nat) : Holdings :=
  { holdings with deck := holdings.deck.drop k, hand := holdings.hand ++ holdings.deck.take k }

theorem drawn_zero (holdings : Holdings) : holdings.drawn 0 = holdings := by
  rw [drawn, List.drop_zero, List.take_zero, List.append_nil]

/-- There are no more cards to draw than the deck has. -/
theorem drawn_min (holdings : Holdings) (n : Nat) :
    holdings.drawn (min n holdings.deck.length) = holdings.drawn n := by
  rw [drawn, drawn, ← List.take_eq_take_min, ← List.drop_eq_drop_min]

end Holdings

namespace Sandbox

/-- How many cards a draw of some amount takes from the deck of the acting side. -/
def cardsDrawn (s : Sandbox) (f : Firing) (n : Int32) : Nat :=
  min n.toInt.toNat (s.holdings f.side).deck.length

theorem cardsDrawn_eq_zero {s : Sandbox} {f : Firing} {n : Int32}
    (h : (s.holdings f.side).deck = [] ∨ n ≤ 0) : s.cardsDrawn f n = 0 := by
  rw [cardsDrawn]
  rcases h with hdeck | hn
  · rw [hdeck, List.length_nil, Nat.min_zero]
  · rw [Int32.le_iff_toInt_le, Int32.toInt_zero] at hn
    rw [Int.toNat_of_nonpos hn, Nat.zero_min]

/-- **A draw in closed form.**  It takes as many cards as were asked for and are there; if there is
one it is told, and if there is none nothing happens. -/
theorem run_resolve_drawCard (f : Firing) (memory : Memory) (n : Int32) (s : Sandbox) :
    (f.resolve memory (.drawCard n)).run answer s =
      if 0 < s.cardsDrawn f n then
        ((.applied, memory),
          (s.setHoldings f.side ((s.holdings f.side).drawn (s.cardsDrawn f n))).addLine
            (f.line ("drew " ++ plural (s.cardsDrawn f n) "card" "cards")))
      else ((.noEffect, memory), s) := by
  rw [Firing.resolve_eq, Firing.plan]
  by_cases hn : 0 < n
  · have hamount : n.toUInt32.toNat = n.toInt.toNat := by
      have hnat := Word.toInt_toUInt32 (Int32.le_of_lt hn)
      omega
    have hdrawn : (Firing.drawUpTo f.side n.toUInt32.toNat).run answer s =
        (s.cardsDrawn f n,
          s.setHoldings f.side ((s.holdings f.side).drawn (s.cardsDrawn f n))) := by
      rw [run_drawUpTo, hamount, cardsDrawn, Holdings.drawn_min]
      rfl
    rw [if_pos hn]
    simp only [Script.run_bind, run_drawCards f s hdrawn]
    by_cases hk : s.cardsDrawn f n = 0
    · rw [hk, Holdings.drawn_zero, setHoldings_holdings]
      rfl
    · rw [if_pos (bne_iff_ne.2 hk), if_pos (Nat.pos_of_ne_zero hk)]
      rfl
  · rw [if_neg hn, cardsDrawn_eq_zero (.inr (Int32.not_lt.1 hn))]
    rfl

/-- **A draw moves a prefix of the deck.**  With `d` and `h` the deck and the hand of the acting
side, a draw of `n` moves the first `k` cards of `d`, in order, to the end of `h`, where `k` is the
lesser of `n` and the length of `d`.  If there is a card to draw, the action is applied and one line
tells the number; if the deck is empty or `n` is not positive, nothing happens at all.  The other
side keeps what it has. -/
theorem draw_moves_prefix (f : Firing) (memory : Memory) (n : Int32) (s : Sandbox) :
    let d := (s.holdings f.side).deck
    let h := (s.holdings f.side).hand
    let k := min n.toInt.toNat d.length
    let after := (f.resolve memory (.drawCard n)).run answer s
    (after.2.holdings f.side).deck = d.drop k ∧
      (after.2.holdings f.side).hand = h ++ d.take k ∧
      after.2.holdings f.side.opponent = s.holdings f.side.opponent ∧
      (0 < k → after = ((.applied, memory),
        (s.setHoldings f.side
          { s.holdings f.side with deck := d.drop k, hand := h ++ d.take k }).addLine
            (f.line ("drew " ++ plural k "card" "cards")))) ∧
      (d = [] ∨ n ≤ 0 → after = ((.noEffect, memory), s)) := by
  intro d h k after
  have hafter : after = _ := run_resolve_drawCard f memory n s
  have hholdings (side : Side) : after.2.holdings side =
      if f.side = side then (s.holdings f.side).drawn k else s.holdings side := by
    rw [hafter]
    split
    · exact s.holdings_setHoldings f.side side _
    · rename_i hk
      have hzero : k = 0 := Nat.eq_zero_of_not_pos hk
      rw [hzero, Holdings.drawn_zero]
      split
      · rename_i hside
        rw [hside]
      · rfl
  have hopponent : f.side ≠ f.side.opponent := by cases f.side <;> decide
  refine ⟨?_, ?_, ?_, fun hk => ?_, fun hnone => ?_⟩
  · rw [hholdings, if_pos rfl]
    rfl
  · rw [hholdings, if_pos rfl]
    rfl
  · rw [hholdings, if_neg hopponent]
  · have hdrawn : 0 < s.cardsDrawn f n := hk
    rw [hafter, if_pos hdrawn]
    rfl
  · rw [hafter, cardsDrawn_eq_zero hnone]
    rfl

/-- A deck with one card left. -/
def lastCard : Sandbox := (start {}).setDeck .player ["hush_money"]

theorem draw_moves_prefix_lastCard :
    let after := (wardRound.resolve {} (.drawCard 3)).run answer lastCard
    after.1 = (.applied, {}) ∧ after.2.player.deck = [] ∧ after.2.player.hand = ["hush_money"] ∧
      after.2.log = ["Medic drew 1 card."] ∧
      (wardRound.resolve {} (.drawCard 3)).run answer after.2 = ((.noEffect, {}), after.2) := by
  intro after
  obtain ⟨hdeck, hhand, -, htold, -⟩ := draw_moves_prefix wardRound {} 3 lastCard
  have hafter : after = _ := htold (by decide +kernel)
  obtain ⟨-, -, -, -, hempty⟩ := draw_moves_prefix wardRound {} 3 after.2
  refine ⟨congrArg Prod.fst hafter, hdeck.trans (by decide +kernel),
    hhand.trans (by decide +kernel), ?_, hempty (.inl (hdeck.trans (by decide +kernel)))⟩
  rw [hafter]
  decide +kernel

end Sandbox

end CardDuel
