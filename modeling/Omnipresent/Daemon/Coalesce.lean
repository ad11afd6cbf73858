import Omnipresent.Daemon.Connection
import Omnipresent.Superseded

/-! Stale cursor positions dropped from a peer's backlog: the pointer is where it would be
at every other command, and in the end. -/
namespace Omnipresent

def PeerCommand.isPointer : PeerCommand → Bool
  | input (.pointer ..) => true
  | _ => false

theorem PeerCommand.isPointer_iff {command : PeerCommand} :
    command.isPointer = true ↔ ∃ x y, command = .input (.pointer x y) := by
  unfold isPointer
  split
  · exact iff_of_true rfl ⟨_, _, rfl⟩
  · rename_i other
    exact iff_of_false nofun fun ⟨x, y, same⟩ => other x y same

theorem coalesceMotion_eq (batch : List PeerCommand) :
    coalesceMotion batch = Superseded.collapse PeerCommand.isPointer batch := by
  rw [coalesceMotion, Superseded.collapse]
  congr 1
  funext out command
  rw [Superseded.push]
  split
  · rename_i last
    rw [last]
    rfl
  · rename_i apart
    refine (if_neg fun both => ?_).symm
    obtain ⟨own, found⟩ := Bool.and_eq_true_iff.mp both
    obtain ⟨last, isLast, earlier⟩ := (Option.any_eq_true PeerCommand.isPointer _).mp found
    obtain ⟨x, y, rfl⟩ := PeerCommand.isPointer_iff.mp own
    obtain ⟨x', y', rfl⟩ := PeerCommand.isPointer_iff.mp earlier
    exact apart x y x' y' rfl isLast

theorem filter_coalesceMotion (batch : List PeerCommand) :
    (coalesceMotion batch).filter (!·.isPointer) = batch.filter (!·.isPointer) := by
  rw [coalesceMotion_eq]
  exact Superseded.filter_collapse batch

/-- The commands that are no positions, each with the last position before it, and the last
position of all. -/
def pointed (batch : List PeerCommand) : Superseded.Placed PeerCommand :=
  Superseded.placed PeerCommand.isPointer batch

/-- Coalescing drops no command but positions and leaves no two of these side by side; the
last position before each other command and in the end is the same, and so it is where
the backlog is coalesced batch by batch. -/
theorem coalesceMotion_pointed (batch : List PeerCommand) :
    (coalesceMotion batch).filter (!·.isPointer) = batch.filter (!·.isPointer) ∧
      (coalesceMotion batch).IsChain (fun first second => ¬ (first.isPointer = true ∧ second.isPointer = true)) ∧
      pointed (coalesceMotion batch) = pointed batch ∧
      ∀ batches : List (List PeerCommand),
        pointed (batches.map coalesceMotion).flatten = pointed (coalesceMotion batches.flatten) := by
  have same : coalesceMotion = Superseded.collapse PeerCommand.isPointer := funext coalesceMotion_eq
  refine ⟨filter_coalesceMotion batch, ?_⟩
  rw [same]
  refine ⟨Superseded.collapse_isChain batch, Superseded.placed_collapse batch, fun batches => ?_⟩
  exact (Superseded.placed_pieces batches).trans (Superseded.placed_collapse batches.flatten).symm

example : coalesceMotion [.input (.pointer 1 1), .input (.pointer 2 2), .input (.button .left .press),
    .input (.pointer 3 3), .input (.pointer 4 4)] =
      [.input (.pointer 2 2), .input (.button .left .press), .input (.pointer 4 4)] := by decide

end Omnipresent
