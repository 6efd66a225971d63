import Mathlib.Tactic

/-!
A Feistel network with whitening. Each key but the last two is mixed into one half and the
round function of the mixed half into the other; the last two keys whiten the halves. The
keys in reverse order undo it, whatever the round function.
-/

namespace NdsRecomp.Library.Feistel

variable {W : Type*} (mix : W → W → W) (F : W → W)

def round (block : W × W) (key : W) : W × W :=
  (mix block.2 key, mix (F (mix block.2 key)) block.1)

def whiten (first second : W) (block : W × W) : W × W :=
  (mix block.2 first, mix block.1 second)

def network : List W → W × W → W × W
  | [], block => block
  | [_], block => block
  | [first, second], block => whiten mix first second block
  | key :: second :: third :: keys, block =>
      network (second :: third :: keys) (round mix F block key)

/-- What one more key at the end does to the output of a network. -/
def extend (key : W) (block : W × W) : W × W :=
  (mix (F block.1) block.2, mix block.1 key)

theorem network_append_pair (keys : List W) (first second : W) (block : W × W) :
    network mix F (keys ++ [first, second]) block =
      whiten mix first second (keys.foldl (round mix F) block) := by
  induction keys generalizing block with
  | nil => rfl
  | cons key keys ih =>
      cases keys with
      | nil => rfl
      | cons next rest =>
          have hstep : network mix F (key :: next :: rest ++ [first, second]) block =
              network mix F (next :: rest ++ [first, second]) (round mix F block key) := by
            cases rest with
            | nil => rfl
            | cons _ _ => rfl
          rw [hstep, ih]
          rfl

/-- A list of two keys or more ends in a pair. -/
theorem eq_append_pair {keys : List W} (hkeys : 2 ≤ keys.length) :
    ∃ rest first second, keys = rest ++ [first, second] := by
  induction keys with
  | nil => cases hkeys
  | cons key keys ih =>
      by_cases hrest : 2 ≤ keys.length
      · obtain ⟨rest, first, second, rfl⟩ := ih hrest
        exact ⟨key :: rest, first, second, rfl⟩
      · obtain ⟨second, rfl⟩ := List.length_eq_one_iff.mp (by
          rw [List.length_cons] at hkeys
          omega : keys.length = 1)
        exact ⟨[], key, second, rfl⟩

section Inverse

/-- The whitening keys before a new last key cancel. -/
theorem network_append_key (hassoc : ∀ a b c, mix (mix a b) c = mix a (mix b c))
    {keys : List W} (hkeys : 2 ≤ keys.length) (key : W)
    (block : W × W) :
    network mix F (keys ++ [key]) block = extend mix F key (network mix F keys block) := by
  obtain ⟨rest, first, second, rfl⟩ := eq_append_pair hkeys
  have happend : rest ++ [first, second] ++ [key] = (rest ++ [first]) ++ [second, key] := by
    simp
  rw [happend, network_append_pair, network_append_pair, List.foldl_append]
  generalize rest.foldl (round mix F) block = halves
  change whiten mix second key (round mix F halves first) =
    extend mix F key (whiten mix first second halves)
  unfold whiten round extend
  refine Prod.ext ?_ rfl
  exact hassoc _ _ _

variable (hassoc : ∀ a b c, mix (mix a b) c = mix a (mix b c))
  (hcomm : ∀ a b, mix a b = mix b a) (hcancel : ∀ a b, mix (mix a b) b = a)

include hcomm hcancel

theorem extend_round (key : W) (block : W × W) :
    extend mix F key (round mix F block key) = block := by
  unfold extend round
  refine Prod.ext ?_ ?_
  · change mix (F _) (mix (F _) block.1) = block.1
    rw [hcomm (F _) (mix _ _), hcomm (F _) block.1, hcancel]
  · exact hcancel _ _

include hassoc

/-- The network over the reversed keys undoes the network. -/
theorem network_reverse (keys : List W) (hkeys : 2 ≤ keys.length) (block : W × W) :
    network mix F keys.reverse (network mix F keys block) = block := by
  induction keys generalizing block with
  | nil => cases hkeys
  | cons key keys ih =>
      match keys, ih with
      | [], _ => exact absurd hkeys (by simp)
      | [second], _ =>
          change whiten mix second key (whiten mix key second block) = block
          exact Prod.ext (hcancel _ _) (hcancel _ _)
      | second :: third :: rest, ih =>
          have hlength : 2 ≤ (second :: third :: rest).length := Nat.le_add_left _ _
          have hreverse : 2 ≤ (second :: third :: rest).reverse.length := by
            rw [List.length_reverse]
            exact hlength
          rw [List.reverse_cons, network_append_key mix F hassoc hreverse]
          change extend mix F key (network mix F (second :: third :: rest).reverse
            (network mix F (second :: third :: rest) (round mix F block key))) = block
          rw [ih hlength]
          exact extend_round mix F hcomm hcancel key block

theorem network_of_reverse (keys : List W) (hkeys : 2 ≤ keys.length) (block : W × W) :
    network mix F keys (network mix F keys.reverse block) = block := by
  have hlength : 2 ≤ keys.reverse.length := by
    rw [List.length_reverse]
    exact hkeys
  have hundone := network_reverse mix F hassoc hcomm hcancel keys.reverse hlength block
  rw [List.reverse_reverse] at hundone
  exact hundone

end Inverse

end NdsRecomp.Library.Feistel
