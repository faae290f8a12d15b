import CardDuel.Dice.Basic
import Mathlib.Data.FinEnum
import Mathlib.Data.Fintype.EquivFin

/-!
# Seeds of streams

The stream of a request is grown from a hash of the seed of the dice, the label and the number of
draws.  A step of mixing can be undone, so a whole label between seed and number takes nothing away.

* `mix_bijective_hash`, `mix_bijective_word` — one step, as a function of the hash and of the word.
* `foldl_mix_bijective` — many words, as a function of the hash that they are mixed into.
* `labelHash_eq` — where the seed and the number of draws enter.
* `stream_seeds_apart` — under one label neither two numbers of draws nor two seeds share a stream
  seed, and every stream seed occurs.
-/

set_option autoImplicit false

namespace CardDuel.Dice

open Function (Injective Bijective)

/-! ## Mixing words -/

theorem mix_bijective_hash (w : UInt64) : Bijective fun h => mix h w := by
  have hinjective : Injective fun h => mix h w := fun _ _ e => mix_injective_hash w e
  exact Finite.injective_iff_bijective.1 hinjective

theorem mix_bijective_word (h : UInt64) : Bijective (mix h) := by
  have hinjective : Injective (mix h) := fun _ _ e => mix_injective_word h e
  exact Finite.injective_iff_bijective.1 hinjective

/-- **Words that are mixed in one after the other** lose nothing of the hash before them. -/
theorem foldl_mix_bijective (ws : List UInt64) : Bijective fun h => ws.foldl mix h := by
  -- the first word is mixed first, so the induction composes from the left
  induction ws with
  | nil => exact Function.bijective_id
  | cons w ws ih => exact ih.comp (mix_bijective_hash w)

/-! ## The hash of a label -/

/-- The words of a label and its closing byte, mixed into a hash. -/
def mixLabel (label : String) (h : UInt64) : UInt64 :=
  (words label.toUTF8.toList ++ [0xff]).foldl mix h

theorem mixLabel_bijective (label : String) : Bijective (mixLabel label) :=
  foldl_mix_bijective _

/-- The seed is mixed first, then the label, and the number of draws last. -/
theorem labelHash_eq (seed draws : UInt64) (label : String) :
    labelHash seed draws label = mix (mixLabel label (mix 0 seed)) draws := by
  have hlast : seed :: words label.toUTF8.toList ++ [0xff, draws] =
      seed :: (words label.toUTF8.toList ++ [0xff]) ++ [draws] := by simp
  rw [labelHash, hlast, List.foldl_append]
  rfl

theorem labelHash_bijective_draws (seed : UInt64) (label : String) :
    Bijective fun draws => labelHash seed draws label := by
  simp only [labelHash_eq]
  exact mix_bijective_word _

theorem labelHash_bijective_seed (draws : UInt64) (label : String) :
    Bijective fun seed => labelHash seed draws label := by
  simp only [labelHash_eq]
  exact (mix_bijective_hash draws).comp ((mixLabel_bijective label).comp (mix_bijective_word 0))

/-- **Two requests under one label never share a stream seed.**  A label's stream is grown from its
hash.  With the seed of the dice held, the hash tells the number of draws, over all 2^64 of them;
with the number of draws held, it tells the seed; and either way every stream seed occurs. -/
theorem stream_seeds_apart (label : String) :
    (∀ d : Dice, d.stream label = .ofSeed (labelHash d.seed d.draws label)) ∧
    (∀ seed, Bijective fun draws => labelHash seed draws label) ∧
    ∀ draws, Bijective fun seed => labelHash seed draws label := by
  refine ⟨fun _ => rfl, ?_, ?_⟩
  · intro seed
    exact labelHash_bijective_draws seed label
  · intro draws
    exact labelHash_bijective_seed draws label

end CardDuel.Dice
