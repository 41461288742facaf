import TensorGraph.Decimal.Layout

/-!
# TensorGraph.Proofs.Decimal.Layout

What the texts of floating-point numbers look like.

* `DecimalText`: a text that stands for a floating-point number, whatever its layout.
* `DecimalText.of_finite`: in a layout that keeps a fractional part every finite number has one.
-/

namespace TensorGraph

/-- What a text has that stands for a floating-point number: it starts like a number, it is spelled
with the characters of one, and it has a point or an exponent. -/
structure DecimalText (text : List Char) : Prop where
  starts : ∃ c ∈ text.head?, c = '-' ∨ c.isDigit
  spelled : ∀ c ∈ text, c.isDigit ∨ c ∈ ['-', '+', '.', 'e']
  marked : ∃ c ∈ text, c = '.' ∨ c = 'e'

namespace DecimalText

variable {layout : DecimalLayout} {text ds : List Char}

theorem isDigit_of_mem_toDigits {n : Nat} : ∀ c ∈ Nat.toDigits 10 n, c.isDigit :=
  fun _ => Nat.isDigit_of_mem_toDigits (by decide) (by decide)

theorem isDigit_of_mem_replicate (n : Nat) : ∀ c ∈ List.replicate n '0', c.isDigit :=
  fun c hc => by rw [List.eq_of_mem_replicate hc]; rfl

theorem spelled_digits (digits : ∀ c ∈ ds, c.isDigit) :
    ∀ c ∈ ds, c.isDigit ∨ c ∈ ['-', '+', '.', 'e'] :=
  fun c hc => .inl (digits c hc)

theorem negated (h : DecimalText text) : DecimalText ('-' :: text) where
  starts := ⟨'-', rfl, .inl rfl⟩
  spelled := List.forall_mem_cons.2 ⟨.inr (by decide), h.spelled⟩
  marked := by
    obtain ⟨c, hc, mark⟩ := h.marked
    exact ⟨c, List.mem_cons_of_mem _ hc, mark⟩

theorem positional (fractional : layout.fractional) (some : ds ≠ [])
    (digits : ∀ c ∈ ds, c.isDigit) (k : Int) : DecimalText (layout.positional ds k) := by
  have spelled := spelled_digits digits
  obtain ⟨d, ds, rfl⟩ := List.exists_cons_of_ne_nil some
  have first := digits d List.mem_cons_self
  rw [DecimalLayout.positional]
  split
  · refine ⟨⟨d, rfl, .inr first⟩, ?_, ⟨'.', by simp, .inl rfl⟩⟩
    rw [List.forall_mem_append, List.forall_mem_append]
    exact ⟨⟨spelled, spelled_digits (isDigit_of_mem_replicate _)⟩, by simp⟩
  · split
    · next inside =>
      obtain ⟨n, whole⟩ := Nat.exists_eq_succ_of_ne_zero
        (show (((d :: ds).length : Int) + k).toNat ≠ 0 by omega)
      refine ⟨⟨d, by rw [whole]; rfl, .inr first⟩, ?_, ⟨'.', by simp, .inl rfl⟩⟩
      rw [List.forall_mem_append, List.forall_mem_cons]
      exact ⟨fun c hc => spelled c (List.mem_of_mem_take hc), .inr (by decide),
        fun c hc => spelled c (List.mem_of_mem_drop hc)⟩
    · refine ⟨⟨'0', rfl, .inr rfl⟩, ?_, ⟨'.', by simp, .inl rfl⟩⟩
      rw [List.cons_append, List.cons_append, List.forall_mem_cons, List.forall_mem_cons,
        List.forall_mem_append]
      exact ⟨.inl rfl, .inr (by decide), spelled_digits (isDigit_of_mem_replicate _), spelled⟩

theorem scientific (some : ds ≠ []) (digits : ∀ c ∈ ds, c.isDigit) (e : Int) :
    DecimalText (layout.scientific ds e) := by
  have spelled := spelled_digits digits
  obtain ⟨d, ds, rfl⟩ := List.exists_cons_of_ne_nil some
  refine ⟨⟨d, rfl, .inr (digits d List.mem_cons_self)⟩, ?_,
    ⟨'e', by simp [DecimalLayout.scientific], .inr rfl⟩⟩
  rw [DecimalLayout.scientific]
  simp only [List.forall_mem_append, List.forall_mem_cons]
  refine ⟨⟨⟨?_, ?_⟩, .inr (by decide), ?_⟩, spelled_digits isDigit_of_mem_toDigits⟩
  · exact fun c hc => spelled c (List.mem_of_mem_take hc)
  · split
    · exact nofun
    · exact List.forall_mem_cons.2 ⟨.inr (by decide), (List.forall_mem_cons.1 spelled).2⟩
  · split
    · simp
    · split <;> simp

theorem decimal (fractional : layout.fractional) (d : Decimal) :
    DecimalText (layout.decimal d) := by
  rw [DecimalLayout.decimal]
  split
  · exact positional fractional Nat.toDigits_ne_nil isDigit_of_mem_toDigits _
  · exact scientific Nat.toDigits_ne_nil isDigit_of_mem_toDigits _

/-- The text of a finite number, in a layout that keeps a fractional part. -/
theorem of_finite (fractional : layout.fractional) (f : Float.Model.Format)
    {u : Float.Model.UnpackedFloat} (finite : u.isFinite) :
    DecimalText (layout.text f u).toList := by
  have signed (s : Float.Model.UnpackedFloat.Sign) {magnitude : List Char}
      (h : DecimalText magnitude) :
      DecimalText (String.ofList (DecimalLayout.sign s ++ magnitude)).toList := by
    rw [String.toList_ofList]
    cases s with
    | negative => exact h.negated
    | positive => exact h
  cases u with
  | infinity s => cases finite
  | notANumber => cases finite
  | zero s => exact signed s (positional fractional (List.cons_ne_nil '0' []) (by simp) 0)
  | finite s m e positive => exact signed s (decimal fractional _)

end DecimalText

end TensorGraph
