import AivpnSpec.Base.SelfDelimiting
import AivpnSpec.Server.ClientDb.Record
import Mathlib.Algebra.Group.Action.Defs
import Mathlib.Algebra.Order.BigOperators.Group.List
import Mathlib.Data.Nat.Digits.Lemmas

/-!
# The JSON text of the QoS settings

`serde_json::to_vec` of an `Option<ClientQos>`, `merge.rs:78-82`, `qos.rs:8-20`: `null`, or the
settings that are present as members of an object, in the order of the fields. The text determines
the settings, and it is short.
-/

namespace AivpnSpec.Server

open AivpnSpec.Base AivpnSpec.Common List

/-- An unsigned number in decimal digits, most significant first. -/
def decimal (n : Nat) : Bytes :=
  if n = 0 then [0x30] else ((Nat.digits 10 n).map fun d => UInt8.ofNat (0x30 + d)).reverse

/-- A member of an object: `"name":value`. -/
def jsonMember (member : String × Nat) : Bytes :=
  [0x22] ++ utf8 member.1 ++ [0x22] ++ [0x3a] ++ decimal member.2

def ClientQos.fields (qos : ClientQos) : List (String × Option Nat) :=
  [("bandwidth_limit_up", qos.bandwidthLimitUp.map UInt64.toNat),
    ("bandwidth_limit_down", qos.bandwidthLimitDown.map UInt64.toNat),
    ("dscp_class", qos.dscpClass.map UInt8.toNat), ("priority", qos.priority.map UInt8.toNat)]

/-- `skip_serializing_if = "Option::is_none"`: the fields that are written. -/
def presentFields (fields : List (String × Option Nat)) : List (String × Nat) :=
  fields.filterMap fun field => field.2.map fun n => (field.1, n)

/-- `serde_json::to_vec(&c.qos)`. -/
def qosToVec : Option ClientQos → Bytes
  | none => [0x6e, 0x75, 0x6c, 0x6c]
  | some qos => [0x7b] ++ [0x2c].intercalate ((presentFields qos.fields).map jsonMember) ++ [0x7d]

example : qosToVec (some ⟨some 1500, none, some 46, none⟩) =
    utf8 "\x7b\"bandwidth_limit_up\":1500,\"dscp_class\":46\x7d" := by decide +kernel

theorem utf8_injective {s t : String} (h : utf8 s = utf8 t) : s = t :=
  String.toByteArray_inj.mp (ByteArray.ext (Array.toList_inj.mp h))

def ofDecimal (text : Bytes) : Nat := text.foldl (fun n b => (b.toNat - 0x30) + 10 * n) 0

theorem ofDecimal_decimal (n : Nat) : ofDecimal (decimal n) = n := by
  unfold decimal
  split
  · next hzero =>
    rw [hzero]
    rfl
  have hdigit : ∀ d ∈ Nat.digits 10 n, (UInt8.ofNat (0x30 + d)).toNat - 0x30 = d := by
    intro d hd
    have hlt := Nat.digits_lt_base (show 1 < 10 by decide) hd
    rw [UInt8.toNat_ofNat_of_lt' (by change 0x30 + d < 256; omega)]
    omega
  unfold ofDecimal
  rw [foldl_reverse, foldr_map]
  have hfold : ∀ l : List Nat, (∀ d ∈ l, (UInt8.ofNat (0x30 + d)).toNat - 0x30 = d) →
      l.foldr (fun d n => (UInt8.ofNat (0x30 + d)).toNat - 0x30 + 10 * n) 0 = Nat.ofDigits 10 l := by
    intro l hl
    induction l with
    | nil => rfl
    | cons d l ih =>
      rw [foldr_cons, hl d mem_cons_self,
        ih fun e he => hl e (mem_cons_of_mem _ he), Nat.ofDigits_cons]
  rw [hfold _ hdigit, Nat.ofDigits_digits]

/-- The digits are digits. -/
theorem mem_decimal {n : Nat} {b : UInt8} (h : b ∈ decimal n) :
    0x30 ≤ b.toNat ∧ b.toNat ≤ 0x39 := by
  unfold decimal at h
  split at h
  · rw [mem_singleton] at h
    rw [h]
    decide
  · rw [mem_reverse, mem_map] at h
    obtain ⟨d, hd, rfl⟩ := h
    have hlt := Nat.digits_lt_base (show 1 < 10 by decide) hd
    rw [UInt8.toNat_ofNat_of_lt' (by change 0x30 + d < 256; omega)]
    omega

theorem length_decimal {n : Nat} (h : n < 10 ^ 20) : (decimal n).length ≤ 20 := by
  unfold decimal
  split
  · decide
  · rw [length_reverse, length_map]
    exact (Nat.digits_length_le_iff (by decide) n).mpr h

def qosNames : List String :=
  ["bandwidth_limit_up", "bandwidth_limit_down", "dscp_class", "priority"]

/-- The names are short and hold neither quotes nor commas. -/
theorem mem_qosNames {name : String} (h : name ∈ qosNames) :
    0x22 ∉ utf8 name ∧ 0x2c ∉ utf8 name ∧ (utf8 name).length ≤ 20 := by
  have hall : ∀ name ∈ qosNames,
      0x22 ∉ utf8 name ∧ 0x2c ∉ utf8 name ∧ (utf8 name).length ≤ 20 := by
    decide +kernel
  exact hall name h

/-- The fields hold numbers of 64 bits under the names. -/
theorem ClientQos.mem_fields {qos : ClientQos} {field : String × Option Nat}
    (h : field ∈ qos.fields) : field.1 ∈ qosNames ∧ ∀ n, field.2 = some n → n < 2 ^ 64 := by
  have h64 : ∀ o : Option UInt64, ∀ n, o.map UInt64.toNat = some n → n < 2 ^ 64 := by
    intro o n hn
    obtain ⟨x, -, rfl⟩ := Option.map_eq_some_iff.mp hn
    exact x.toNat_lt
  have h8 : ∀ o : Option UInt8, ∀ n, o.map UInt8.toNat = some n → n < 2 ^ 64 := by
    intro o n hn
    obtain ⟨x, -, rfl⟩ := Option.map_eq_some_iff.mp hn
    exact Nat.lt_trans x.toNat_lt (by decide)
  simp only [ClientQos.fields, mem_cons, not_mem_nil, or_false] at h
  rcases h with rfl | rfl | rfl | rfl
  · exact ⟨by simp [qosNames], h64 _⟩
  · exact ⟨by simp [qosNames], h64 _⟩
  · exact ⟨by simp [qosNames], h8 _⟩
  · exact ⟨by simp [qosNames], h8 _⟩

variable {member : String × Nat} {α : Type}

/-- A written member is one of the fields. -/
theorem mem_presentFields {fields : List (String × Option Nat)} :
    member ∈ presentFields fields ↔ (member.1, some member.2) ∈ fields := by
  unfold presentFields
  rw [mem_filterMap]
  constructor
  · rintro ⟨⟨name, value⟩, hmem, hvalue⟩
    obtain ⟨n, rfl, rfl⟩ := Option.map_eq_some_iff.mp hvalue
    exact hmem
  · intro hmem
    exact ⟨_, hmem, rfl⟩

/-- The written members determine the fields. -/
theorem ClientQos.eq_of_presentFields {qos qos' : ClientQos}
    (h : presentFields qos.fields = presentFields qos'.fields) : qos = qos' := by
  have hfield : ∀ name (value value' : Option Nat), (name, value) ∈ qos.fields →
      (name, value') ∈ qos'.fields → (∀ v, (name, v) ∈ qos.fields → v = value) →
      (∀ v, (name, v) ∈ qos'.fields → v = value') → value = value' := by
    intro name value value' hmem hmem' honly honly'
    apply Option.ext
    intro n
    constructor
    · rintro rfl
      have hin : (name, n) ∈ presentFields qos.fields := mem_presentFields.mpr hmem
      rw [h] at hin
      exact (honly' _ (mem_presentFields.mp hin)).symm
    · rintro rfl
      have hin : (name, n) ∈ presentFields qos'.fields := mem_presentFields.mpr hmem'
      rw [← h] at hin
      exact (honly _ (mem_presentFields.mp hin)).symm
  have hinj64 : ∀ o o' : Option UInt64, o.map UInt64.toNat = o'.map UInt64.toNat → o = o' :=
    fun o o' ho => Option.map_injective (fun _ _ => UInt64.toNat_inj.mp) ho
  have hinj8 : ∀ o o' : Option UInt8, o.map UInt8.toNat = o'.map UInt8.toNat → o = o' :=
    fun o o' ho => Option.map_injective (fun _ _ => UInt8.toNat_inj.mp) ho
  have hup := hfield "bandwidth_limit_up" (qos.bandwidthLimitUp.map UInt64.toNat)
    (qos'.bandwidthLimitUp.map UInt64.toNat) (by simp [fields]) (by simp [fields])
    (by simp [fields]) (by simp [fields])
  have hdown := hfield "bandwidth_limit_down" (qos.bandwidthLimitDown.map UInt64.toNat)
    (qos'.bandwidthLimitDown.map UInt64.toNat) (by simp [fields]) (by simp [fields])
    (by simp [fields]) (by simp [fields])
  have hdscp := hfield "dscp_class" (qos.dscpClass.map UInt8.toNat)
    (qos'.dscpClass.map UInt8.toNat) (by simp [fields]) (by simp [fields])
    (by simp [fields]) (by simp [fields])
  have hpriority := hfield "priority" (qos.priority.map UInt8.toNat)
    (qos'.priority.map UInt8.toNat) (by simp [fields]) (by simp [fields])
    (by simp [fields]) (by simp [fields])
  cases qos
  cases qos'
  simp only [ClientQos.mk.injEq]
  exact ⟨hinj64 _ _ hup, hinj64 _ _ hdown, hinj8 _ _ hdscp, hinj8 _ _ hpriority⟩

theorem jsonMember_injective {member' : String × Nat} (hquote : 0x22 ∉ utf8 member.1)
    (hquote' : 0x22 ∉ utf8 member'.1) (h : jsonMember member = jsonMember member') :
    member = member' := by
  unfold jsonMember at h
  simp only [append_assoc] at h
  have htext := append_cancel_left h
  simp only [← append_assoc] at htext
  rw [append_assoc, append_assoc (utf8 member'.1 ++ [0x22])] at htext
  obtain ⟨hname, hvalue⟩ := selfDelimiting_terminated 0x22 _ _ _ _ hquote hquote' htext
  have hdigits := congrArg ofDecimal (append_cancel_left hvalue)
  rw [ofDecimal_decimal, ofDecimal_decimal] at hdigits
  exact Prod.ext (utf8_injective hname) hdigits

theorem not_mem_jsonMember (h : 0x2c ∉ utf8 member.1) : 0x2c ∉ jsonMember member := by
  unfold jsonMember
  simp only [mem_append, mem_singleton, not_or]
  refine ⟨⟨⟨⟨by decide, h⟩, by decide⟩, by decide⟩, fun hdigit => ?_⟩
  have := (mem_decimal hdigit).1
  revert this
  decide

/-- Nonempty texts without the separator can be told apart in their concatenation. -/
theorem intercalate_injective [DecidableEq α] {separator : α} {l l' : List (List α)}
    (hl : ∀ text ∈ l, separator ∉ text ∧ text ≠ [])
    (hl' : ∀ text ∈ l', separator ∉ text ∧ text ≠ [])
    (h : [separator].intercalate l = [separator].intercalate l') : l = l' := by
  have hsplit : ∀ l : List (List α), (∀ text ∈ l, separator ∉ text ∧ text ≠ []) → l ≠ [] →
      ([separator].intercalate l).splitOn separator = l := fun l hl hne =>
    splitOn_intercalate separator (fun text htext => (hl text htext).1) hne
  have hnil : ∀ l : List (List α), (∀ text ∈ l, separator ∉ text ∧ text ≠ []) →
      [separator].intercalate l = [] → l = [] := by
    intro l hl hempty
    by_contra hne
    have hlist := hsplit l hl hne
    rw [hempty, splitOn_nil] at hlist
    have hmem : [] ∈ l := by
      rw [← hlist]
      exact mem_singleton_self _
    exact (hl [] hmem).2 rfl
  by_cases hne : l = []
  · subst hne
    exact (hnil l' hl' h.symm).symm
  by_cases hne' : l' = []
  · subst hne'
    exact hnil l hl h
  · rw [← hsplit l hl hne, h, hsplit l' hl' hne']

/-- The text determines the settings. -/
theorem qosToVec_injective {qos qos' : Option ClientQos} (h : qosToVec qos = qosToVec qos') :
    qos = qos' := by
  cases qos with
  | none =>
    cases qos' with
    | none => rfl
    | some q' => cases h
  | some q =>
    cases qos' with
    | none => cases h
    | some q' =>
      have htext : [0x7b] ++ [0x2c].intercalate ((presentFields q.fields).map jsonMember) ++ [0x7d] =
          [0x7b] ++ [0x2c].intercalate ((presentFields q'.fields).map jsonMember) ++ [0x7d] := h
      have hbody := append_cancel_left (append_cancel_right htext)
      have hname : ∀ (q : ClientQos) (member : String × Nat), member ∈ presentFields q.fields →
          member.1 ∈ qosNames := fun q member hmem =>
        (ClientQos.mem_fields (mem_presentFields.mp hmem)).1
      have htexts : ∀ q : ClientQos, ∀ text ∈ (presentFields q.fields).map jsonMember,
          0x2c ∉ text ∧ text ≠ [] := by
        intro q text htext
        obtain ⟨member, hmem, rfl⟩ := mem_map.mp htext
        exact ⟨not_mem_jsonMember (mem_qosNames (hname q member hmem)).2.1, by simp [jsonMember]⟩
      have hmembers := intercalate_injective (htexts q) (htexts q') hbody
      have hfields := eq_of_map_eq (fun member hmem member' hmem' =>
        jsonMember_injective (mem_qosNames (hname q member hmem)).1
          (mem_qosNames (hname q' member' hmem')).1) hmembers
      rw [ClientQos.eq_of_presentFields hfields]

theorem length_intercalate_le (separator : α) (l : List (List α)) :
    ([separator].intercalate l).length ≤ (l.map fun text => text.length + 1).sum := by
  induction l with
  | nil => simp
  | cons text l ih =>
    cases l with
    | nil => simp
    | cons next l =>
      rw [intercalate_cons_cons, length_append, length_append, map_cons,
        sum_cons, length_singleton]
      omega

/-- The text is far shorter than a 32-bit length can say. -/
theorem length_qosToVec (qos : Option ClientQos) : (qosToVec qos).length < 2 ^ 32 := by
  cases qos with
  | none => decide
  | some q =>
    have hmember : ∀ length ∈ ((presentFields q.fields).map jsonMember).map
        (fun text => text.length + 1), length ≤ 44 := by
      intro length hlength
      rw [map_map] at hlength
      obtain ⟨member, hmem, rfl⟩ := mem_map.mp hlength
      obtain ⟨hname, hvalue⟩ := ClientQos.mem_fields (mem_presentFields.mp hmem)
      have hshort : (utf8 member.1).length ≤ 20 := (mem_qosNames hname).2.2
      have hdigits := length_decimal (Nat.lt_trans (hvalue member.2 rfl) (by decide))
      simp only [Function.comp_apply, jsonMember, length_append, length_singleton]
      omega
    have hcount : (presentFields q.fields).length ≤ 4 := length_filterMap_le _ _
    have hsum := sum_le_card_nsmul _ 44 hmember
    rw [length_map, length_map, smul_eq_mul] at hsum
    have hbody := Nat.le_trans (length_intercalate_le 0x2c _) hsum
    simp only [qosToVec, length_append, length_singleton]
    omega

end AivpnSpec.Server
