import Glmaxx.Proof.Sequence.Shape

namespace Glmaxx.Proof.Sequence
open Std Library Cache Cache.SequencePageTable

variable {mtp : Bool} {c r i : Nat} {entry : SequencePage}

variable {t : SequencePageTable}

def pageOf (t : SequencePageTable) (entry : SequencePage) : PhysicalPage :=
  (t.physical[entry.physical]?).getD ⟨none, .free, 0, 0, none⟩

def viewOf (t : SequencePageTable) (entry : SequencePage) : SequencePageView where
  ordinal := entry.ordinal
  physical := entry.physical
  draftLocalPageId := (pageOf t entry).draftLocalPageId
  state := (pageOf t entry).state
  validTokens := (pageOf t entry).validTokens
  references := (pageOf t entry).references
  sharedPrefix := (pageOf t entry).prefixPage.isSome

def snapshotOf (t : SequencePageTable) (entry : Nat × Cache.Sequence) : SequencePageSnapshot where
  sequenceId := entry.1
  mtp := entry.2.mtp
  committedTokens := entry.2.committedTokens
  tentativeTokens := reserved entry.2
  pages := entry.2.pages.map (viewOf t)

theorem EntryFits.found
    (fits : EntryFits t mtp c r i entry) : t.physical[entry.physical]? = some (pageOf t entry) := by
  obtain ⟨page, found, _⟩ := fits.page
  simp [pageOf, found]

theorem EntryFits.fits (fits : EntryFits t mtp c r i entry) : Fits mtp c r i (pageOf t entry) := by
  obtain ⟨page, found, fits⟩ := fits.page
  simpa [pageOf, found] using fits

theorem viewPage_ok (found : t.physical[entry.physical]? = some (pageOf t entry)) :
    t.viewPage entry = .ok (viewOf t entry) := by
  unfold SequencePageTable.viewPage
  rw [found]
  rfl

theorem pages_ok (valid : Valid t) {id : Nat} {sequence : Cache.Sequence}
    (live : t.sequences[id]? = some sequence) :
    t.pages id = .ok (sequence.pages.map (viewOf t)) := by
  unfold SequencePageTable.pages
  rw [live]
  refine mapM_ok_of_forall sequence.pages fun entry member => ?_
  obtain ⟨i, get⟩ := List.mem_iff_getElem?.mp member
  exact viewPage_ok ((valid.shape id sequence live).entries i entry get).found

theorem snapshots_ok (valid : Valid t) : t.snapshots = .ok (t.sequences.toList.map (snapshotOf t)) := by
  refine mapM_ok_of_forall t.sequences.toList ?_
  rintro ⟨id, sequence⟩ member
  unfold SequencePageTable.snapshot
  rw [pages_ok valid (mem_toList_iff.mp member)]
  rfl

end Glmaxx.Proof.Sequence
