import Mathlib
import MessageBoard.Details
import MessageBoard.Page
import MessageBoard.Proofs.Shapes
import MessageBoard.Vote

/-!
# Records read back from their text

What is written of a record is read as that record. The records are told as values of faithful
shapes, and the details of a record write nothing under the name of one of its fields.
-/

namespace MessageBoard

open Json

namespace Wire

variable {α : Type} (wire : Wire α)

/-- Every value is read from its text as it was. -/
def ReadsBack : Prop := ∀ v, wire.ofText (wire.toJson v).render = .ok v

variable {wire}

theorem ofText_render {j : Json} (hj : j.Modest) {v : wire.shape.Val}
    (hread : wire.shape.read j.document = .ok v) : wire.ofText j.render = .ok (wire.ofVal v) := by
  rw [ofText, ofChars, Json.render, String.toList_ofList, hj.ofChars_write]
  simp only [hread]
  rfl

theorem readsBack (hshape : wire.shape.Faithful) (hval : ∀ v, wire.ofVal (wire.toVal v) = v) :
    wire.ReadsBack := by
  intro v
  have hread := ofText_render (wire.shape.modest_toJson (wire.toVal v))
    (wire.shape.readsBack hshape (wire.toVal v))
  rw [hval] at hread
  exact hread

end Wire

/-! ## The records -/

attribute [local simp] Fields.names

theorem User.faithful : (Shape.record User.fields).Faithful := by
  simp

theorem Forum.faithful : (Shape.record Forum.fields).Faithful := by
  simp

theorem Thread.faithful : (Shape.record Thread.fields).Faithful := by
  simp

theorem Post.faithful : (Shape.record Post.fields).Faithful := by
  simp

theorem Metadata.faithful : (Shape.record Metadata.fields).Faithful := by
  simp

theorem Vote.faithful (votable : Votable) : (Vote.wire votable).shape.Faithful := by
  cases votable <;> simp [Vote.wire, Votable.schema]

theorem VoteSummary.faithful : (Shape.record VoteSummary.fields).Faithful := by
  simp

theorem Page.faithful {α : Type} {row : Wire α} (hrow : row.shape.Faithful) :
    (Page.wire row).shape.Faithful := by
  have hmetadata := Metadata.faithful
  simp [Page.wire, hrow] at hmetadata ⊢

theorem ForumDetails.faithful : ForumDetails.wire.shape.Faithful := by
  simp [ForumDetails.wire]

theorem ThreadDetails.faithful : ThreadDetails.wire.shape.Faithful := by
  simp [ThreadDetails.wire]

theorem PostDetails.faithful : PostDetails.wire.shape.Faithful := by
  simp [PostDetails.wire]

theorem User.readsBack : User.wire.ReadsBack := Wire.readsBack User.faithful fun _ => rfl

theorem Forum.readsBack : Forum.wire.ReadsBack := Wire.readsBack Forum.faithful fun _ => rfl

theorem Thread.readsBack : Thread.wire.ReadsBack := Wire.readsBack Thread.faithful fun _ => rfl

theorem Post.readsBack : Post.wire.ReadsBack := Wire.readsBack Post.faithful fun _ => rfl

theorem Page.readsBack {α : Type} {row : Wire α} (hrow : row.shape.Faithful)
    (hval : ∀ v, row.ofVal (row.toVal v) = v) : (Page.wire row).ReadsBack := by
  refine Wire.readsBack (Page.faithful hrow) fun page => ?_
  have hrows : (page.rows.map row.toVal).map row.ofVal = page.rows := by
    rw [List.map_map]
    exact List.map_id'' hval _
  show (⟨(page.rows.map row.toVal).map row.ofVal, .ofVal page.metadata.toVal⟩ : Page α) = page
  rw [hrows]
  rfl

/-! ## Details -/

/-- The fields of the inner record are read from the text of a flat one, whatever else is in it. -/
theorem Shape.read_inner {inner own : Fields} (hshape : (Shape.flat inner own).Faithful)
    (v : (Shape.flat inner own).Val) :
    (Shape.record inner).read ((Shape.flat inner own).toJson v).document = .ok v.1 := by
  obtain ⟨hnames, -, hinner, -⟩ := hshape
  obtain ⟨hinnerNames, -, hdisjoint⟩ := List.nodup_append'.1 hnames
  have hothers : ∀ e ∈ own.toEntries v.2, e.1 ∉ inner.names := fun _ he hmem =>
    hdisjoint hmem (Fields.mem_names_of_mem_toEntries he)
  exact read_record_append hinnerNames (inner.readBack hinner) v.1 hothers

theorem ForumDetails.ofText_forum (d : ForumDetails) :
    Forum.wire.ofText (ForumDetails.wire.toJson d).render = .ok d.forum := by
  have hread : Forum.wire.shape.read (ForumDetails.wire.toJson d).document = .ok d.forum.toVal :=
    Shape.read_inner ForumDetails.faithful (ForumDetails.wire.toVal d)
  exact Wire.ofText_render (Shape.modest_toJson _ _) hread

theorem ThreadDetails.ofText_thread (d : ThreadDetails) :
    Thread.wire.ofText (ThreadDetails.wire.toJson d).render = .ok d.thread := by
  have hread : Thread.wire.shape.read (ThreadDetails.wire.toJson d).document = .ok d.thread.toVal :=
    Shape.read_inner ThreadDetails.faithful (ThreadDetails.wire.toVal d)
  exact Wire.ofText_render (Shape.modest_toJson _ _) hread

theorem PostDetails.ofText_post (d : PostDetails) :
    Post.wire.ofText (PostDetails.wire.toJson d).render = .ok d.post := by
  have hread : Post.wire.shape.read (PostDetails.wire.toJson d).document = .ok d.post.toVal :=
    Shape.read_inner PostDetails.faithful (PostDetails.wire.toVal d)
  exact Wire.ofText_render (Shape.modest_toJson _ _) hread

theorem ForumDetails.readsBack : ForumDetails.wire.ReadsBack := by
  refine Wire.readsBack ForumDetails.faithful fun d => ?_
  obtain ⟨forum, owner, threadCount⟩ := d
  cases owner <;> rfl

theorem ThreadDetails.readsBack : ThreadDetails.wire.ReadsBack := by
  refine Wire.readsBack ThreadDetails.faithful fun d => ?_
  obtain ⟨thread, author, forum, votes, postCount⟩ := d
  cases author <;> cases forum <;> rfl

theorem PostDetails.readsBack : PostDetails.wire.ReadsBack := by
  refine Wire.readsBack PostDetails.faithful fun d => ?_
  obtain ⟨post, author, votes⟩ := d
  cases author <;> rfl

/-- Every record, page and details record is read from its text as it was, and the record that
details are about is among them in full. -/
theorem records_read_back :
    User.wire.ReadsBack ∧ Forum.wire.ReadsBack ∧ Thread.wire.ReadsBack ∧ Post.wire.ReadsBack ∧
      (∀ votable, (Vote.wire votable).ReadsBack) ∧ VoteSummary.wire.ReadsBack ∧
      Metadata.wire.ReadsBack ∧ (Page.wire Forum.wire).ReadsBack ∧ ForumDetails.wire.ReadsBack ∧
      ThreadDetails.wire.ReadsBack ∧ PostDetails.wire.ReadsBack ∧
      (∀ d, Forum.wire.ofText (ForumDetails.wire.toJson d).render = .ok d.forum) ∧
      (∀ d, Thread.wire.ofText (ThreadDetails.wire.toJson d).render = .ok d.thread) ∧
      (∀ d, Post.wire.ofText (PostDetails.wire.toJson d).render = .ok d.post) := by
  have hvote : ∀ votable, (Vote.wire votable).ReadsBack := fun votable =>
    Wire.readsBack (Vote.faithful votable) fun _ => rfl
  have hsummary : VoteSummary.wire.ReadsBack := Wire.readsBack VoteSummary.faithful fun _ => rfl
  have hmetadata : Metadata.wire.ReadsBack := Wire.readsBack Metadata.faithful fun _ => rfl
  have hpage : (Page.wire Forum.wire).ReadsBack := Page.readsBack Forum.faithful fun _ => rfl
  exact ⟨User.readsBack, Forum.readsBack, Thread.readsBack, Post.readsBack, hvote, hsummary,
    hmetadata, hpage, ForumDetails.readsBack, ThreadDetails.readsBack, PostDetails.readsBack,
    ForumDetails.ofText_forum, ThreadDetails.ofText_thread, PostDetails.ofText_post⟩

end MessageBoard
