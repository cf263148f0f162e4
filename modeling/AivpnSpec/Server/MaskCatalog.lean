import AivpnSpec.Base.Runs
import AivpnSpec.Base.Table

/-!
# The mask catalogue

`crates/aivpn-server/src/gateway/mask_catalog.rs:61-130`. Threads register masks, mark them as
compromised and give expired ones back, by single operations on two concurrent maps. A mark looks
for another live mask before it removes its own; nothing keeps that other mask live until then.
-/

namespace AivpnSpec.Server

open AivpnSpec.Base List

/-- `COMPROMISED_TTL`, `mask_catalog.rs:40`, in seconds. -/
def compromisedTtl : Nat := 3600

/-- `MaskCatalog`, `mask_catalog.rs:15-33`. -/
structure MaskCatalog (M : Type) where
  masks : Table String M
  compromised : Table String (Nat × M)

/-- A call of the catalogue and where it stands, named by its next operation on a map. -/
inductive CatalogCall (M : Type) where
  | register (mask : M)
  | registerInsert (mask : M)
  | registerRecheck (mask : M)
  | registerUndo (mask : M)
  | mark (id : String)
  | markGet (id : String) (fallback : M)
  | markInsert (id : String) (mask fallback : M)
  | markRemove (id : String) (fallback : M)
  | sweep
  | sweepRemove (expired : List (String × M))
  | sweepInsert (id : String) (mask : M) (expired : List (String × M))

namespace MaskCatalog

variable {M : Type} (maskId : M → String)

/-- `select_fallback`, `mask_catalog.rs:123-129`; `order` is the iteration order of the map. -/
def selectFallback (c : MaskCatalog M) (currentMaskId : String) (order : List String) : Option M :=
  (order.filter (· ≠ currentMaskId)).findSome? c.masks.lookup

/-- The next operation of a call, and the call after it unless it returns: `register_mask`,
`mark_compromised_with_fallback` and `sweep_expired_compromised`. -/
def advance (c : MaskCatalog M) (now : Nat) (order : List String) :
    CatalogCall M → MaskCatalog M × Option (CatalogCall M)
  | .register mask =>
    (c, if maskId mask ∈ c.compromised then none else some (.registerInsert mask))
  | .registerInsert mask =>
    ({ c with masks := c.masks.insert (maskId mask) mask }, some (.registerRecheck mask))
  | .registerRecheck mask =>
    (c, if maskId mask ∈ c.compromised then some (.registerUndo mask) else none)
  | .registerUndo mask => ({ c with masks := c.masks.erase (maskId mask) }, none)
  | .mark id => (c, (c.selectFallback id order).map (.markGet id))
  | .markGet id fallback =>
    (c, match c.masks.lookup id with
      | some mask => some (.markInsert id mask fallback)
      | none => some (.markRemove id fallback))
  | .markInsert id mask fallback =>
    ({ c with compromised := c.compromised.insert id (now, mask) }, some (.markRemove id fallback))
  | .markRemove id _ => ({ c with masks := c.masks.erase id }, none)
  | .sweep =>
    (c, some (.sweepRemove (order.filterMap fun id => (c.compromised.lookup id).bind fun e =>
      if compromisedTtl ≤ now - e.1 then some (id, e.2) else none)))
  | .sweepRemove [] => (c, none)
  | .sweepRemove ((id, mask) :: expired) =>
    ({ c with compromised := c.compromised.erase id }, some (.sweepInsert id mask expired))
  | .sweepInsert id mask expired =>
    ({ c with masks := c.masks.insert id mask }, some (.sweepRemove expired))

variable {c : MaskCatalog M}

theorem mem_of_selectFallback {id : String} {order : List String}
    {mask : M} (h : c.selectFallback id order = some mask) : ∃ other ∈ c.masks, other ≠ id := by
  obtain ⟨other, hother, hlookup⟩ := exists_of_findSome?_eq_some h
  refine ⟨other, ?_, of_decide_eq_true (mem_filter.1 hother).2⟩
  exact Table.mem_iff_lookup.2 ⟨mask, hlookup⟩

/-- Registrations and sweeps: no mask goes, none becomes compromised or comes back compromised. -/
structure Grows (c c' : MaskCatalog M) : Prop where
  masks : ∀ id ∈ c.masks, id ∈ c'.masks
  compromised : ∀ id ∈ c'.compromised, id ∈ c.compromised
  both : ∀ id ∈ c'.masks, id ∈ c'.compromised → id ∈ c.masks

protected theorem Grows.refl (c : MaskCatalog M) : c.Grows c :=
  ⟨fun _ => id, fun _ => id, fun _ hid _ => hid⟩

theorem grows_insert {id : String} (h : id ∉ c.compromised) (mask : M) :
    c.Grows { c with masks := c.masks.insert id mask } := by
  refine ⟨fun _ hid => (AList.mem_insert _).2 (.inr hid), fun _ hid => hid,
    fun other hid hid' => ?_⟩
  exact ((AList.mem_insert _).1 hid).resolve_left fun heq => h (heq ▸ hid')

end MaskCatalog

/-- The catalogue with the calls in progress. -/
structure CatalogRun (M : Type) where
  catalog : MaskCatalog M
  calls : List (CatalogCall M)

inductive CatalogStep (M : Type) where
  | registerMask (mask : M)
  | markCompromisedWithFallback (id : String)
  | sweepExpiredCompromised
  | advance (call now : Nat) (order : List String)

namespace CatalogRun

variable {M : Type} (maskId : M → String)

def perform (r : CatalogRun M) : CatalogStep M → CatalogRun M
  | .registerMask mask => { r with calls := .register mask :: r.calls }
  | .markCompromisedWithFallback id => { r with calls := .mark id :: r.calls }
  | .sweepExpiredCompromised => { r with calls := .sweep :: r.calls }
  | .advance i now order =>
    match r.calls[i]? with
    | none => r
    | some call =>
      let (catalog, next) := r.catalog.advance maskId now order call
      ⟨catalog, next.toList ++ r.calls.eraseIdx i⟩

def after (steps : List (CatalogStep M)) (k : Nat) : CatalogRun M :=
  stateAt (perform maskId) ⟨⟨∅, ∅⟩, []⟩ steps k

def Disjoint (r : CatalogRun M) : Prop :=
  ∀ id ∈ r.catalog.masks, id ∉ r.catalog.compromised

end CatalogRun

namespace CatalogCall

variable {M : Type} (maskId : M → String)

def isMark : CatalogCall M → Bool
  | mark _ | markGet _ _ | markInsert _ _ _ | markRemove _ _ => true
  | _ => false

/-- What a call has found out and relies on. -/
def Holds (c : MaskCatalog M) : CatalogCall M → Prop
  | registerInsert mask | registerRecheck mask => maskId mask ∉ c.compromised
  | registerUndo _ => False
  | markGet id _ | markInsert id _ _ | markRemove id _ => ∃ other ∈ c.masks, other ≠ id
  | sweepInsert id _ _ => id ∉ c.compromised
  | _ => True

variable {maskId} {c c' : MaskCatalog M} {call : CatalogCall M}

theorem Holds.mono (h : call.Holds maskId c) (hgrows : c.Grows c') : call.Holds maskId c' := by
  cases call with
  | registerInsert mask | registerRecheck mask | sweepInsert id mask expired =>
    exact fun hmem => h (hgrows.compromised _ hmem)
  | registerUndo mask => exact h
  | markGet id fallback | markInsert id mask fallback | markRemove id fallback =>
    exact h.imp fun other hother => ⟨hgrows.masks other hother.1, hother.2⟩
  | _ => trivial

theorem Holds.advance (h : call.Holds maskId c) (hcall : call.isMark = false) (now : Nat)
    (order : List String) :
    let r := c.advance maskId now order call
    c.Grows r.1 ∧ ∀ next ∈ r.2, next.Holds maskId r.1 := by
  cases call with
  | register mask =>
    refine ⟨.refl c, fun next hnext => ?_⟩
    by_cases hmem : maskId mask ∈ c.compromised <;>
      simp only [MaskCatalog.advance, hmem, if_true, if_false, Option.mem_def, reduceCtorEq,
        Option.some.injEq] at hnext
    subst hnext
    exact hmem
  | registerInsert mask =>
    refine ⟨MaskCatalog.grows_insert h mask, fun next hnext => ?_⟩
    cases hnext
    exact h
  | registerRecheck mask =>
    refine ⟨.refl c, fun next hnext => ?_⟩
    simp only [MaskCatalog.advance, if_neg (show maskId mask ∉ c.compromised from h)] at hnext
    cases hnext
  | registerUndo mask => exact h.elim
  | sweep =>
    refine ⟨.refl c, fun next hnext => ?_⟩
    cases hnext
    trivial
  | sweepRemove expired =>
    cases expired with
    | nil => exact ⟨.refl c, nofun⟩
    | cons e expired =>
      refine ⟨⟨fun _ => id, fun _ hid => (AList.mem_erase.1 hid).2, fun _ hid _ => hid⟩,
        fun next hnext => ?_⟩
      cases hnext
      exact fun hid => (AList.mem_erase.1 hid).1 rfl
  | sweepInsert id mask expired =>
    refine ⟨MaskCatalog.grows_insert h mask, fun next hnext => ?_⟩
    cases hnext
    trivial
  | _ => cases hcall

end CatalogCall

namespace CatalogRun

variable {M : Type} {maskId : M → String} {r : CatalogRun M}

/-- No call overlaps a mark. -/
def MarksAlone (r : CatalogRun M) : Prop :=
  ∀ call ∈ r.calls, call.isMark = true → r.calls.length = 1

instance (r : CatalogRun M) : Decidable r.MarksAlone :=
  inferInstanceAs (Decidable (∀ call ∈ r.calls, _))

variable (maskId) in
/-- A mask is in both maps only while its mark is about to remove it. -/
structure Sound (r : CatalogRun M) : Prop where
  removing : ∀ id ∈ r.catalog.masks, id ∈ r.catalog.compromised →
    ∃ fallback, .markRemove id fallback ∈ r.calls
  holds : ∀ call ∈ r.calls, call.Holds maskId r.catalog

/-- A call that begins has found out nothing yet. -/
theorem Sound.begin (h : r.Sound maskId) {call : CatalogCall M}
    (hcall : ∀ c, call.Holds maskId c) : Sound maskId { r with calls := call :: r.calls } := by
  refine ⟨fun id hid hid' => ?_, fun other hother => ?_⟩
  · obtain ⟨fallback, hmem⟩ := h.removing id hid hid'
    exact ⟨fallback, mem_cons_of_mem _ hmem⟩
  · rcases mem_cons.1 hother with rfl | hold
    · exact hcall _
    · exact h.holds other hold

/-- An operation of a mark that runs alone. -/
theorem Sound.advance_mark {call : CatalogCall M} (h : Sound maskId ⟨c, [call]⟩)
    (hmark : call.isMark = true) (now : Nat) (order : List String) :
    let s := c.advance maskId now order call
    Sound maskId ⟨s.1, s.2.toList⟩ ∧ ((∃ id, id ∈ c.masks) → ∃ id, id ∈ s.1.masks) := by
  have hboth := fun id hid hid' => (h.removing id hid hid').imp fun _ => mem_singleton.1
  have hholds := h.holds call mem_cons_self
  cases call with
  | mark id =>
    refine ⟨⟨fun other hid hid' => ?_, fun next hnext => ?_⟩, fun hmem => hmem⟩
    · nomatch hboth other hid hid'
    · obtain ⟨fallback, hfallback, rfl⟩ := Option.map_eq_some_iff.1 (Option.mem_toList.1 hnext)
      exact MaskCatalog.mem_of_selectFallback hfallback
  | markGet id fallback =>
    refine ⟨⟨fun other hid hid' => ?_, fun next hnext => ?_⟩, fun hmem => hmem⟩
    · nomatch hboth other hid hid'
    · have hnext := Option.mem_toList.1 hnext
      simp only [MaskCatalog.advance] at hnext
      split at hnext <;> cases hnext <;> exact hholds
  | markInsert id mask fallback =>
    refine ⟨⟨fun other hid hid' => ?_, fun next hnext => ?_⟩, fun hmem => hmem⟩
    · rcases (AList.mem_insert _).1 hid' with rfl | hold
      · exact ⟨fallback, mem_singleton_self _⟩
      · nomatch hboth other hid hold
    · cases mem_singleton.1 hnext
      exact hholds
  | markRemove id fallback =>
    refine ⟨⟨fun other hid hid' => ?_, nofun⟩, fun _ => ?_⟩
    · obtain ⟨hne, hid⟩ := AList.mem_erase.1 hid
      obtain ⟨_, heq⟩ := hboth other hid hid'
      cases heq
      exact absurd rfl hne
    · obtain ⟨other, hother, hne⟩ := hholds
      exact ⟨other, AList.mem_erase.2 ⟨hne, hother⟩⟩
  | _ => cases hmark

theorem Sound.perform (h : r.Sound maskId) (halone : r.MarksAlone) (step : CatalogStep M) :
    (r.perform maskId step).Sound maskId ∧
      ((∃ id, id ∈ r.catalog.masks) → ∃ id, id ∈ (r.perform maskId step).catalog.masks) := by
  cases step with
  | registerMask mask => exact ⟨h.begin fun _ => trivial, fun hmem => hmem⟩
  | markCompromisedWithFallback id => exact ⟨h.begin fun _ => trivial, fun hmem => hmem⟩
  | sweepExpiredCompromised => exact ⟨h.begin fun _ => trivial, fun hmem => hmem⟩
  | advance i now order =>
    simp only [CatalogRun.perform]
    split
    · exact ⟨h, fun hmem => hmem⟩
    next call hcall =>
    have hmem := mem_of_getElem? hcall
    cases hmark : call.isMark with
    | true =>
      obtain ⟨only, honly⟩ := length_eq_one_iff.1 (halone call hmem hmark)
      obtain ⟨c, calls⟩ := r
      subst honly
      rw [getElem?_singleton] at hcall
      split at hcall
      · next hi =>
        cases hcall
        subst hi
        dsimp only
        rw [eraseIdx_zero, tail_cons, append_nil]
        exact h.advance_mark hmark now order
      · cases hcall
    | false =>
      obtain ⟨hgrows, hnext⟩ := (h.holds call hmem).advance hmark now order
      refine ⟨⟨fun id hid hid' => ?_, fun other hother => ?_⟩,
        fun ⟨id, hid⟩ => ⟨id, hgrows.masks id hid⟩⟩
      · have hold := hgrows.compromised id hid'
        obtain ⟨fallback, hother⟩ := h.removing id (hgrows.both id hid hid') hold
        obtain ⟨j, hj⟩ := getElem?_of_mem hother
        have hne : j ≠ i := fun heq => by
          rw [heq, hcall] at hj
          cases hj
          cases hmark
        exact ⟨fallback,
          mem_append_right _ (mem_eraseIdx_iff_getElem?.2 ⟨j, hne, hj⟩)⟩
      · rcases mem_append.1 hother with hnew | hold
        · exact hnext other (Option.mem_toList.1 hnew)
        · exact (h.holds other (mem_of_mem_eraseIdx hold)).mono hgrows

theorem sound_after {steps : List (CatalogStep M)}
    (halone : ∀ k < steps.length, (after maskId steps k).MarksAlone) (k : Nat) :
    (after maskId steps k).Sound maskId := by
  refine stateAt_keeps (Nat.zero_le k) ?_ fun j step _ _ hstep hsound => ?_
  · exact ⟨fun id hid => absurd hid (AList.notMem_empty id), nofun⟩
  · exact (hsound.perform (halone j (List.getElem?_eq_some_iff.1 hstep).1) step).1

/-- As long as no call overlaps a mark, with registrations and sweeps interleaved in any way, no
mask is live and compromised at rest, and live masks never run out. -/
theorem catalogue_keeps_a_live_mask (steps : List (CatalogStep M))
    (halone : ∀ k < steps.length, (after maskId steps k).MarksAlone) :
    (∀ k, (after maskId steps k).calls = [] → (after maskId steps k).Disjoint) ∧
      ∀ j k, j ≤ k → (∃ id, id ∈ (after maskId steps j).catalog.masks) →
        ∃ id, id ∈ (after maskId steps k).catalog.masks := by
  refine ⟨fun k hrest id hid hid' => ?_, fun j k hjk hlive => ?_⟩
  · obtain ⟨fallback, hmem⟩ := (sound_after halone k).removing id hid hid'
    rw [hrest] at hmem
    cases hmem
  · refine stateAt_keeps (P := fun r : CatalogRun M => ∃ id, id ∈ r.catalog.masks) hjk hlive
      fun i step _ _ hstep hmem => ?_
    have hlt := (List.getElem?_eq_some_iff.1 hstep).1
    exact ((sound_after halone i).perform (halone i hlt) step).2 hmem

def twoMasks : List (CatalogStep String) :=
  .registerMask "A" :: .replicate 3 (.advance 0 0 []) ++
    .registerMask "B" :: .replicate 3 (.advance 0 0 [])

def loneMark : List (CatalogStep String) :=
  twoMasks ++ .markCompromisedWithFallback "A" :: .replicate 4 (.advance 0 0 ["B"])

theorem catalogue_keeps_a_live_mask_loneMark :
    (after id loneMark 13).catalog.compromised.keys = ["A"] ∧
      ∃ mask, mask ∈ (after id loneMark 13).catalog.masks :=
  ⟨by decide +kernel, (catalogue_keeps_a_live_mask loneMark (by decide +kernel)).2 8 13 (by decide)
    ⟨"A", by decide +kernel⟩⟩

/-- Two marks find each other's mask and remove both. -/
def crossedMarks : List (CatalogStep String) :=
  twoMasks ++ [.markCompromisedWithFallback "A", .markCompromisedWithFallback "B",
    .advance 1 0 ["B"], .advance 1 0 ["A"]] ++ .replicate 6 (.advance 0 0 [])

/-- While a sweep is about to give a mask back, it is registered and marked again. -/
def sweptMark : List (CatalogStep String) :=
  loneMark ++ .sweepExpiredCompromised :: .replicate 2 (.advance 0 3600 ["A"]) ++
    .registerMask "A" :: .replicate 3 (.advance 0 3600 []) ++
    .markCompromisedWithFallback "A" :: .replicate 4 (.advance 0 3600 ["B"]) ++
    .replicate 2 (.advance 0 3600 [])

theorem marks_empty_the_catalogue :
    ("A" ∈ (after id crossedMarks 8).catalog.masks ∧ (after id crossedMarks 18).calls = [] ∧
      (after id crossedMarks 18).catalog.masks.keys = []) ∧
    ((after id sweptMark 27).calls = [] ∧ ¬(after id sweptMark 27).Disjoint) := by
  refine ⟨⟨by decide +kernel, by decide +kernel, by decide +kernel⟩, by decide +kernel, fun h => ?_⟩
  exact absurd (h "A" (by decide +kernel)) (by decide +kernel)

end CatalogRun

end AivpnSpec.Server
