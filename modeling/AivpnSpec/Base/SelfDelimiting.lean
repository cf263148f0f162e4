import AivpnSpec.Base.Words

/-!
# Encodings that end by themselves

An encoding whose end does not depend on what stands behind it can be read off the front of a
string. Such encodings compose: written one after the other, or in a list of any length, they
determine what was encoded.
-/

namespace AivpnSpec.Base

open List

variable {α β : Type} {P : α → Prop} {encode : α → List β}

/-- On the values in question an encoding determines its value and where it ends. -/
def SelfDelimiting (P : α → Prop) (encode : α → List β) : Prop :=
  ∀ a b rest rest', P a → P b → encode a ++ rest = encode b ++ rest' → a = b ∧ rest = rest'

/-- An injective encoding of one length. -/
theorem selfDelimiting_of_length {n : Nat} (hlen : ∀ a, P a → (encode a).length = n)
    (hinj : ∀ a b, P a → P b → encode a = encode b → a = b) : SelfDelimiting P encode := by
  intro a b rest rest' ha hb h
  obtain ⟨hab, hrest⟩ := append_inj h ((hlen a ha).trans (hlen b hb).symm)
  exact ⟨hinj a b ha hb hab, hrest⟩

/-- Bytes behind their length in a fixed number of bytes. -/
theorem selfDelimiting_withLength (w : Nat) :
    SelfDelimiting (fun bytes : List UInt8 => bytes.length < 256 ^ w)
      (fun bytes => leBytes w bytes.length ++ bytes) := by
  intro a b rest rest' ha hb h
  rw [append_assoc, append_assoc] at h
  obtain ⟨hlength, hrest⟩ := append_inj h (by rw [length_leBytes, length_leBytes])
  have hsame := congrArg ofLe hlength
  rw [ofLe_leBytes, ofLe_leBytes, Nat.mod_eq_of_lt ha, Nat.mod_eq_of_lt hb] at hsame
  exact append_inj hrest hsame

/-- A list in front of a terminator that it does not contain. -/
theorem selfDelimiting_terminated [DecidableEq β] (terminator : β) :
    SelfDelimiting (fun l : List β => terminator ∉ l) (fun l => l ++ [terminator]) := by
  intro a b rest rest' ha hb h
  have hbefore : ∀ l : List β, terminator ∉ l → ∀ rest,
      (l ++ [terminator] ++ rest).takeWhile (· ≠ terminator) = l := by
    intro l hl rest
    have hkeep : ∀ x ∈ l, decide (x ≠ terminator) = true := by
      intro x hx
      refine decide_eq_true ?_
      rintro rfl
      exact hl hx
    rw [append_assoc, takeWhile_append_of_pos hkeep]
    simp
  have hab : a = b := by
    rw [← hbefore a ha rest, h, hbefore b hb rest']
  rw [hab] at h
  exact ⟨hab, append_cancel_left h⟩

/-- A flag, and the value behind it or a fixed filling. -/
def encodeOption (present absent : β) (filling : List β) (encode : α → List β) :
    Option α → List β
  | some a => present :: encode a
  | none => absent :: filling

theorem selfDelimiting_option {present absent : β} (hne : present ≠ absent) (filling : List β)
    (h : SelfDelimiting P encode) :
    SelfDelimiting (fun o => ∀ a, o = some a → P a)
      (encodeOption present absent filling encode) := by
  intro o o' rest rest' ho ho' heq
  cases o with
  | none =>
    cases o' with
    | none =>
      have hfilled : (absent :: filling) ++ rest = (absent :: filling) ++ rest' := heq
      exact ⟨rfl, append_cancel_left hfilled⟩
    | some b =>
      injection heq with hflag
      exact absurd hflag.symm hne
  | some a =>
    cases o' with
    | none =>
      injection heq with hflag
      exact absurd hflag hne
    | some b =>
      injection heq with _ hrest
      obtain ⟨rfl, hend⟩ := h a b rest rest' (ho a rfl) (ho' b rfl) hrest
      exact ⟨rfl, hend⟩

/-- Lists are equal where their images are and the function tells their elements apart. -/
theorem eq_of_map_eq {f : α → β} {l l' : List α} (hinj : ∀ a ∈ l, ∀ b ∈ l', f a = f b → a = b)
    (h : l.map f = l'.map f) : l = l' := by
  induction l generalizing l' with
  | nil =>
    rw [map_nil, eq_comm, map_eq_nil_iff] at h
    exact h.symm
  | cons a l ih =>
    cases l' with
    | nil => cases h
    | cons b l' =>
      rw [map_cons, map_cons, cons.injEq] at h
      rw [hinj a mem_cons_self b mem_cons_self h.1,
        ih (fun c hc d hd => hinj c (mem_cons_of_mem _ hc) d (mem_cons_of_mem _ hd)) h.2]

/-- Encodings written one after the other determine the list of their values. -/
theorem SelfDelimiting.flatMap_inj (h : SelfDelimiting P encode) (hne : ∀ a, encode a ≠ [])
    {l l' : List α} (hl : ∀ a ∈ l, P a) (hl' : ∀ a ∈ l', P a)
    (heq : l.flatMap encode = l'.flatMap encode) : l = l' := by
  induction l generalizing l' with
  | nil =>
    cases l' with
    | nil => rfl
    | cons b l' =>
      rw [flatMap_nil, flatMap_cons, eq_comm, append_eq_nil_iff] at heq
      exact absurd heq.1 (hne b)
  | cons a l ih =>
    cases l' with
    | nil =>
      rw [flatMap_nil, flatMap_cons, append_eq_nil_iff] at heq
      exact absurd heq.1 (hne a)
    | cons b l' =>
      rw [flatMap_cons, flatMap_cons] at heq
      obtain ⟨rfl, hrest⟩ := h a b _ _ (hl a mem_cons_self) (hl' b mem_cons_self) heq
      rw [ih (fun c hc => hl c (mem_cons_of_mem _ hc))
        (fun c hc => hl' c (mem_cons_of_mem _ hc)) hrest]

end AivpnSpec.Base
