import Mathlib.Data.List.Infix
import MessageBoard.Text.Split

/-!
# Texts cut in two

A text that was joined at a mark is cut there again unless the mark is found elsewhere before:
within the first part, or, if the mark can overlap itself, where the first part meets it. A mark
whose first character does not come again in it cannot, so it is enough to look into the first part.
-/

namespace MessageBoard.Text

variable {c : Char} {a b cs sep : List Char}

/-! ## At the first mark -/

/-- A text is cut where it was joined, unless a separator starts before that. -/
theorem cutFirst?_of_starts (hsep : sep ≠ [])
    (h : ∀ x t, x :: t <:+ a → ¬ sep <+: x :: t ++ (sep ++ b)) :
    cutFirst? sep (a ++ (sep ++ b)) = some (a, b) := by
  induction a with
  | nil =>
    obtain ⟨d, ds, rfl⟩ := List.exists_cons_of_ne_nil hsep
    have hprefix : (d :: ds).isPrefixOf (d :: (ds ++ b)) = true :=
      List.isPrefixOf_iff_prefix.2 (List.prefix_append (d :: ds) b)
    rw [List.nil_append, List.cons_append, cutFirst?, if_pos hprefix]
    have hdrop : (d :: (ds ++ b)).drop (d :: ds).length = b := List.drop_left
    rw [hdrop]
  | cons x a ih =>
    have hstart : ¬ sep.isPrefixOf (x :: (a ++ (sep ++ b))) = true := fun hprefix =>
      h x a List.suffix_rfl (List.isPrefixOf_iff_prefix.1 hprefix)
    have hrest := ih fun y t ht => h y t (ht.trans (List.suffix_cons x a))
    rw [List.cons_append, cutFirst?, if_neg hstart, hrest]
    rfl

theorem cutFirst?_joined (hsep : sep ≠ []) (h : ¬ sep <:+: a ++ sep.dropLast) :
    cutFirst? sep (a ++ (sep ++ b)) = some (a, b) := by
  refine cutFirst?_of_starts hsep fun x t ht hprefix => h ?_
  have hlength : sep.length ≤ (x :: t ++ sep.dropLast).length := by
    have hpos : 0 < sep.length := List.length_pos_iff.2 hsep
    simp only [List.cons_append, List.length_cons, List.length_append, List.length_dropLast]
    omega
  have hwhole : x :: t ++ sep.dropLast <+: x :: t ++ (sep ++ b) := by
    rw [List.prefix_append_right_inj]
    exact (List.dropLast_prefix sep).trans (List.prefix_append sep b)
  have hwithin : sep <+: x :: t ++ sep.dropLast :=
    List.prefix_of_prefix_length_le hprefix hwhole hlength
  obtain ⟨front, rfl⟩ := ht
  rw [List.append_assoc]
  exact hwithin.isInfix.trans (List.suffix_append front _).isInfix

theorem cutFirst?_eq_none (h : ¬ sep <:+: a) : cutFirst? sep a = none := by
  cases hcut : cutFirst? sep a with
  | none => rfl
  | some cut =>
    have heq := eq_of_cutFirst? (a := cut.1) (b := cut.2) hcut
    exact absurd ⟨cut.1, cut.2, heq.symm⟩ h

theorem not_within_of_notMem (hc : c ∉ a) : ¬ c :: sep <:+: a := fun hwithin =>
  hc (hwithin.subset List.mem_cons_self)

theorem prefix_of_notMem (hc : c ∉ sep) (h : sep <+: a ++ c :: b) : sep <+: a := by
  rcases List.prefix_or_prefix_of_prefix h (List.prefix_append a (c :: b)) with hsep | ⟨ds, rfl⟩
  · exact hsep
  · rw [List.prefix_append_right_inj] at h
    cases ds with
    | nil => rw [List.append_nil]
    | cons d ds =>
      obtain ⟨rfl, -⟩ := List.cons_prefix_cons.1 h
      exact absurd (List.mem_append_right a List.mem_cons_self) hc

/-- A separator that its first character does not come again in is found where it was put, unless it
is in what stands before. -/
theorem cutFirst?_of_not_within (hc : c ∉ sep) (h : ¬ c :: sep <:+: a) (b : List Char) :
    cutFirst? (c :: sep) (a ++ c :: (sep ++ b)) = some (a, b) := by
  refine cutFirst?_of_starts (List.cons_ne_nil c sep) fun x t ht hprefix => h ?_
  obtain ⟨rfl, hsep⟩ := List.cons_prefix_cons.1 hprefix
  have hwithin : c :: sep <+: c :: t := (List.prefix_cons_inj c).2 (prefix_of_notMem hc hsep)
  exact hwithin.isInfix.trans ht.isInfix

theorem cutFirst?_char (hc : c ∉ a) (b : List Char) : cutFirst? [c] (a ++ c :: b) = some (a, b) :=
  cutFirst?_of_not_within List.not_mem_nil (not_within_of_notMem hc) b

theorem not_within_of_cutFirst? (hsep : sep ≠ []) (h : cutFirst? sep cs = some (a, b)) :
    ¬ sep <:+: a := by
  intro hwithin
  obtain ⟨x, y, hxy⟩ := exists_cutFirst? hwithin
  have hearlier := cutFirst?_append hxy (sep ++ b)
  rw [← List.append_assoc, ← eq_of_cutFirst? h, h] at hearlier
  obtain ⟨-, hrest⟩ := Prod.mk.inj (Option.some.inj hearlier)
  have hlength := congrArg List.length hrest
  have hpos : 0 < sep.length := List.length_pos_iff.2 hsep
  simp only [List.length_append] at hlength
  omega

theorem notMem_of_cutFirst? (h : cutFirst? [c] cs = some (a, b)) : c ∉ a := fun hmem =>
  not_within_of_cutFirst? (List.cons_ne_nil c []) h ((List.singleton_infix_iff c a).2 hmem)

theorem notMem_getD_cutFirst? (c : Char) (cs rest : List Char) :
    c ∉ ((cutFirst? [c] cs).getD (cs, rest)).1 := by
  cases hcut : cutFirst? [c] cs with
  | some cut => exact notMem_of_cutFirst? hcut
  | none =>
    intro hmem
    have hwithin : [c] <:+: cs := (List.singleton_infix_iff c cs).2 hmem
    obtain ⟨a, b, hab⟩ := exists_cutFirst? hwithin
    rw [hcut] at hab
    cases hab

/-! ## At the last mark -/

theorem cutLast?_char (hc : c ∉ b) (a : List Char) : cutLast? c (a ++ c :: b) = some (a, b) := by
  have hcut : cutLast? c (c :: b) = some ([], b) := by
    rw [cutLast?, cutLast?_eq_none.2 hc]
    exact if_pos rfl
  have happend := cutLast?_append hcut a
  rwa [List.append_nil] at happend

end MessageBoard.Text
