/-
What a connector remembers. It is asked for its constant port again and again, is given another place, is
copied and becomes part of models. A model starts it afresh, but another place does not: the port that is
remembered keeps the place at which it was first asked for.
-/
import Mathlib.Data.List.Forall2
import Interconnect.Connector

namespace Interconnect.Connector

/-! ## Uses -/

/-- What can be done with a connector: give it another place, ask for its constant port, go on with a copy
of it, and make it part of a model, in a scope and with the number that is next. -/
inductive Use where
  | place (span : Span)
  | ask
  | copy
  | join (scope : Scope) (index : Nat)
  deriving DecidableEq, Repr

/-- A copy remembers what the connector does. -/
def Use.apply : Use → Connector → Connector
  | place span, k => k.withSpan span
  | ask, k => k.readConstantPort.2
  | copy, k => k
  | join scope index, k => (k.attach scope).number index

/-- The connector after uses, one after the other. -/
def after (k : Connector) (uses : List Use) : Connector := uses.foldl (fun k u => u.apply k) k

/-- The uses without the questions. -/
def unasked (uses : List Use) : List Use := uses.filter (· ≠ .ask)

/-- Connectors join a model as a list does: all in its scope, the constant ones with numbers. -/
theorem forall₂_attachAll (scope : Scope) (used : Nat) (ks : List Connector) :
    List.Forall₂ (fun k k' => ∃ index, k' = Use.apply (.join scope index) k) ks
      (attachAll scope used ks) := by
  induction ks generalizing used with
  | nil => exact .nil
  | cons k rest ih =>
    unfold attachAll
    split
    · exact .cons ⟨used + 1, rfl⟩ (ih _)
    · rename_i hk
      exact .cons ⟨0, (if_neg hk).symm⟩ (ih _)

/-! ## Fields -/

/-- What is answered is remembered. -/
theorem readConstantPort_eq (k : Connector) : k.readConstantPort =
    (k.constantPort?, { k with remembered := k.constantPort?.or k.remembered }) := by
  unfold readConstantPort
  split <;> rename_i h <;> rw [h] <;> rfl

theorem apply_ask (k : Connector) :
    Use.ask.apply k = { k with remembered := k.constantPort?.or k.remembered } :=
  congrArg Prod.snd k.readConstantPort_eq

/-- Joining a model gives a constant connector a number and makes it forget; a wired one only gets its
scope. -/
theorem apply_join (k : Connector) (scope : Scope) (index : Nat) : (Use.join scope index).apply k =
    if k.isConstant then
      { k with source := PortRef.constantStem ++ toString index, remembered := none, scope := some scope }
    else { k with scope := some scope } := rfl

theorem constant_apply (u : Use) (k : Connector) : (u.apply k).constant = k.constant := by
  cases u with
  | place span => rfl
  | ask => rw [apply_ask]
  | copy => rfl
  | join scope index =>
    rw [apply_join]
    split <;> rfl

theorem constant_after (k : Connector) (uses : List Use) : (k.after uses).constant = k.constant := by
  induction uses generalizing k with
  | nil => rfl
  | cons u rest ih => exact (ih (u.apply k)).trans (constant_apply u k)

/-- Connectors that differ in what they remember at most. -/
def Alike (k k' : Connector) : Prop := { k with remembered := none } = { k' with remembered := none }

theorem alike_iff {k k' : Connector} : Alike k k' ↔ k.source = k'.source ∧ k.target = k'.target ∧
    k.constant = k'.constant ∧ k.scope = k'.scope ∧ k.span = k'.span := by
  simp [Alike]

/-- A question changes nothing but what is remembered. -/
theorem alike_ask (k : Connector) : Alike (Use.ask.apply k) k := by
  rw [apply_ask]
  rfl

theorem Alike.apply {k k' : Connector} (h : Alike k k') (u : Use) : Alike (u.apply k) (u.apply k') := by
  cases u with
  | place span =>
    obtain ⟨hsource, htarget, hconstant, hscope, -⟩ := alike_iff.1 h
    exact alike_iff.2 ⟨hsource, htarget, hconstant, hscope, rfl⟩
  | ask => exact ((alike_ask k).trans h).trans (alike_ask k').symm
  | copy => exact h
  | join scope index =>
    obtain ⟨hsource, htarget, hconstant, -, hspan⟩ := alike_iff.1 h
    have hkind : k.isConstant = k'.isConstant := congrArg Option.isSome hconstant
    rw [apply_join, apply_join, hkind]
    split
    · exact alike_iff.2 ⟨rfl, htarget, hconstant, rfl, hspan⟩
    · exact alike_iff.2 ⟨hsource, htarget, hconstant, rfl, hspan⟩

/-- But for what it remembers, a connector is the same whether it was asked or not. -/
theorem alike_after_unasked {k k' : Connector} (h : Alike k k') (uses : List Use) :
    Alike (k.after uses) (k'.after (unasked uses)) := by
  induction uses generalizing k k' with
  | nil => exact h
  | cons u rest ih =>
    by_cases hu : u = .ask
    · subst hu
      exact ih ((alike_ask k).trans h)
    · rw [unasked, List.filter_cons_of_pos (by simpa using hu)]
      exact ih (h.apply u)

/-! ## Memory -/

/-- The place of a connector, and the one where it was when it was first asked since it last joined a
model. -/
structure History where
  span : Span
  asked : Option Span := none

def History.next (h : History) : Use → History
  | .place span => { h with span }
  | .ask => { h with asked := h.asked.or (some h.span) }
  | .copy => h
  | .join _ _ => { h with asked := none }

def historyAfter (k : Connector) (uses : List Use) : History := uses.foldl History.next ⟨k.span, none⟩

/-- The connector remembers the port of its source at the place where it was first asked, and a wired one
nothing at all. -/
structure Remembers (h : History) (k : Connector) : Prop where
  span : k.span = h.span
  remembered : k.remembered = k.constant.bind fun value => h.asked.map (.ofConstant k.source value)

namespace Remembers

variable {h : History} {k : Connector} (hr : Remembers h k)

include hr

theorem constantPort?_eq : k.constantPort? =
    k.constant.map fun value => .ofConstant k.source value (h.asked.getD k.span) := by
  unfold constantPort?
  rw [hr.remembered]
  cases k.constant with
  | none => rfl
  | some value => cases h.asked <;> rfl

theorem apply (u : Use) : Remembers (h.next u) (u.apply k) := by
  cases u with
  | place span => exact ⟨rfl, hr.remembered⟩
  | ask =>
    rw [apply_ask]
    refine ⟨hr.span, ?_⟩
    show k.constantPort?.or k.remembered = k.constant.bind _
    rw [hr.constantPort?_eq, hr.remembered, hr.span]
    cases k.constant with
    | none => rfl
    | some value => cases ha : h.asked <;> simp [History.next, ha]
  | copy => exact hr
  | join scope index =>
    rw [apply_join]
    split
    · refine ⟨hr.span, ?_⟩
      cases k.constant <;> rfl
    · rename_i hwired
      refine ⟨hr.span, ?_⟩
      show k.remembered = k.constant.bind _
      rw [hr.remembered, Option.not_isSome_iff_eq_none.1 hwired]
      rfl

theorem foldl (uses : List Use) : Remembers (uses.foldl History.next h) (k.after uses) := by
  induction uses generalizing h k with
  | nil => exact hr
  | cons u rest ih => exact ih (hr.apply u)

end Remembers

theorem remembers_after {k : Connector} (hk : k.remembered = none) (uses : List Use) :
    Remembers (k.historyAfter uses) (k.after uses) := by
  refine Remembers.foldl ⟨rfl, ?_⟩ uses
  rw [hk]
  cases k.constant <;> rfl

/-! ## Answers -/

/-- The constant port of a connector as it is now. -/
def currentPort? (k : Connector) : Option Port :=
  k.constant.map fun value => .ofConstant k.source value k.span

/-- Whatever a connector was asked before, once it has joined a model it answers with its port as it is. -/
theorem constantPort?_join (k : Connector) (scope : Scope) (index : Nat) :
    ((Use.join scope index).apply k).constantPort? = ((Use.join scope index).apply k).currentPort? := by
  rw [apply_join]
  split
  · rfl
  · rename_i hwired
    have hnone : k.constant = none := Option.not_isSome_iff_eq_none.1 hwired
    simp [constantPort?, currentPort?, hnone]

theorem constantPort?_attachAll {scope : Scope} {used : Nat} {ks : List Connector} :
    ∀ k ∈ attachAll scope used ks, k.constantPort? = k.currentPort? := by
  have hjoined := forall₂_attachAll scope used ks
  generalize attachAll scope used ks = ks' at hjoined
  induction hjoined with
  | nil => nofun
  | cons hk _ ih =>
    obtain ⟨index, rfl⟩ := hk
    exact List.forall_mem_cons.2 ⟨constantPort?_join _ scope index, ih⟩

/-- Without questions there is no first one. -/
theorem asked_unasked (k : Connector) (uses : List Use) :
    (k.historyAfter (unasked uses)).asked = none := by
  have hnext : ∀ (us : List Use) (h : History), h.asked = none → (∀ u ∈ us, u ≠ .ask) →
      (us.foldl History.next h).asked = none := by
    intro us
    induction us with
    | nil => exact fun h hh _ => hh
    | cons u rest ih =>
      intro h hh hus
      obtain ⟨hu, hrest⟩ := List.forall_mem_cons.1 hus
      refine ih (h.next u) ?_ hrest
      cases u with
      | ask => exact absurd rfl hu
      | join scope index => rfl
      | _ => exact hh
  exact hnext _ _ rfl fun u hu => by simpa using (List.mem_filter.1 hu).2

/-- A connector that remembers nothing yet answers, after any uses, with the port of its source at the
place where it was first asked since it last joined a model. Without these questions it would answer with
the port at its present place. So memory shows exactly if a constant connector has been asked at another
place since. -/
theorem answer_after {k : Connector} (hk : k.remembered = none) (uses : List Use) :
    (k.after uses).readConstantPort.1 = (k.constant.map fun value =>
      .ofConstant (k.after uses).source value ((k.historyAfter uses).asked.getD (k.after uses).span)) ∧
    (k.after (unasked uses)).readConstantPort.1 = (k.constant.map fun value =>
      .ofConstant (k.after uses).source value (k.after uses).span) ∧
    ((k.after uses).readConstantPort.1 = (k.after (unasked uses)).readConstantPort.1 ↔
      k.isConstant = false ∨ ∀ s ∈ (k.historyAfter uses).asked, s = (k.after uses).span) := by
  have hanswer := (remembers_after hk uses).constantPort?_eq
  have hfresh := (remembers_after hk (unasked uses)).constantPort?_eq
  obtain ⟨hsource, -, -, -, hspan⟩ := alike_iff.1 (alike_after_unasked (rfl : Alike k k) uses)
  rw [constant_after] at hanswer hfresh
  rw [asked_unasked, Option.getD_none, ← hsource, ← hspan] at hfresh
  rw [readConstantPort_eq, readConstantPort_eq, hanswer, hfresh]
  refine ⟨rfl, rfl, ?_⟩
  rw [isConstant]
  cases k.constant with
  | none => simp
  | some value => cases (k.historyAfter uses).asked <;> simp [Port.ofConstant]

/-- A connector that is asked, placed, made part of a model and asked again there. -/
def joinedUses : List Use := [.ask, .place ⟨4, 6⟩, .join (.component 0) 1, .ask, .copy]

theorem answer_after_joined : (ofConstant "1" "s.x" {}).remembered = none ∧
    ((ofConstant "1" "s.x" {}).after joinedUses).readConstantPort.1 =
      some (.ofConstant "CONSTANTPORT1" "1" ⟨4, 6⟩) ∧
    ((ofConstant "1" "s.x" {}).after joinedUses).readConstantPort.1 =
      ((ofConstant "1" "s.x" {}).after (unasked joinedUses)).readConstantPort.1 := by
  obtain ⟨hanswer, -, hsame⟩ := answer_after (k := ofConstant "1" "s.x" {}) rfl joinedUses
  exact ⟨rfl, hanswer.trans (by decide), hsame.2 (.inr (by rintro _ ⟨⟩; rfl))⟩

/-- Another place after a question does not change the answer, not even that of a copy. -/
theorem place_keeps_answer :
    ((ofConstant "1" "s.x" {}).after [.ask, .place ⟨4, 6⟩, .copy]).readConstantPort.1 =
      some (.ofConstant PortRef.constantStem "1" {}) ∧
    ((ofConstant "1" "s.x" {}).after [.ask, .place ⟨4, 6⟩, .copy]).currentPort? =
      some (.ofConstant PortRef.constantStem "1" ⟨4, 6⟩) ∧
    ((ofConstant "1" "s.x" {}).after [.ask, .place ⟨4, 6⟩, .copy]).readConstantPort.1 ≠
      ((ofConstant "1" "s.x" {}).after (unasked [.ask, .place ⟨4, 6⟩, .copy])).readConstantPort.1 := by
  decide

end Interconnect.Connector
