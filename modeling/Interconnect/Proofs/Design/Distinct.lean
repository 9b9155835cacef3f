/-
Names in designs that build. A design has no defect in its components exactly when no two components
share a name and each component keeps its ports (by name and direction) and its instances apart, so
that looking a member up by its key finds that member.
-/
import Interconnect.Design
import Mathlib.Data.List.Nodup

namespace Interconnect

/-- No port is declared twice in one direction, and no instance twice. -/
structure Component.Distinct (c : Component) : Prop where
  ports : (c.ports.map fun p => (p.name, p.direction)).Nodup
  instances : (c.instances.map Instance.name).Nodup

namespace Design

/-! ## Clashes -/

/-- Nothing clashes exactly when the members passed and those to come have different keys. -/
theorem clashes_eq_nil_iff {α κ : Type} [DecidableEq κ] (key : α → κ) (before l : List α)
    (h : (before.map key).Nodup) :
    clashes key before l = [] ↔ ((before ++ l).map key).Nodup := by
  induction l generalizing before with
  | nil => simp [clashes, h]
  | cons a rest ih =>
    cases hf : before.find? (key · = key a) with
    | none =>
      have hnew : ∀ b ∈ before, key b ≠ key a := by simpa using hf
      have hb : ((before ++ [a]).map key).Nodup := by
        rw [List.map_append, List.nodup_append]
        refine ⟨h, List.nodup_singleton _, fun x hx y hy => ?_⟩
        obtain ⟨b, hb, rfl⟩ := List.mem_map.1 hx
        rw [List.mem_singleton.1 hy]
        exact hnew b hb
      rw [clashes, hf]
      simpa using ih (before ++ [a]) hb
    | some first =>
      have hm := List.mem_of_find?_eq_some hf
      have hk : key first = key a := by simpa using List.find?_some hf
      rw [clashes, hf]
      refine ⟨nofun, fun hn => ?_⟩
      rw [List.map_append, List.nodup_append] at hn
      exact absurd hk (hn.2.2 _ (List.mem_map_of_mem hm) _ (by simp))

theorem memberDefects_eq_nil_iff (c : Component) : memberDefects c = [] ↔ c.Distinct := by
  rw [memberDefects, List.append_eq_nil_iff, List.map_eq_nil_iff, List.map_eq_nil_iff,
    clashes_eq_nil_iff _ [] _ List.nodup_nil, clashes_eq_nil_iff _ [] _ List.nodup_nil]
  exact ⟨fun h => ⟨h.1, h.2⟩, fun h => ⟨h.1, h.2⟩⟩

theorem componentDefects_eq_nil_iff (before cs : List Component)
    (h : (before.map Component.name).Nodup) :
    componentDefects before cs = [] ↔
      ((before ++ cs).map Component.name).Nodup ∧ ∀ c ∈ cs, c.Distinct := by
  induction cs generalizing before with
  | nil => simp [componentDefects, h]
  | cons c rest ih =>
    rw [componentDefects, List.append_eq_nil_iff, List.append_eq_nil_iff, memberDefects_eq_nil_iff]
    -- the clash of the component itself is the clash of a list of one
    have hown : ((before.find? (·.name = c.name)).map fun first =>
        Defect.duplicateComponent c.name c.span first.span).toList = [] ↔
          ((before ++ [c]).map Component.name).Nodup := by
      rw [← clashes_eq_nil_iff Component.name before [c] h]
      cases hf : before.find? (·.name = c.name) <;> simp [clashes, hf]
    rw [hown]
    constructor
    · rintro ⟨⟨hb, hc⟩, hrest⟩
      obtain ⟨hn, hd⟩ := (ih _ hb).1 hrest
      rw [List.append_assoc, List.singleton_append] at hn
      exact ⟨hn, List.forall_mem_cons.2 ⟨hc, hd⟩⟩
    · rintro ⟨hn, hd⟩
      obtain ⟨hc, hd⟩ := List.forall_mem_cons.1 hd
      have hb : ((before ++ [c]).map Component.name).Nodup :=
        hn.sublist (((List.singleton_sublist.2 (List.mem_cons_self ..)).append_left _).map _)
      refine ⟨⟨hb, hc⟩, (ih _ hb).2 ⟨?_, hd⟩⟩
      rwa [List.append_assoc, List.singleton_append]

/-- A design builds exactly when it has no defect, and then into its assembly. -/
theorem build_eq_ok_iff {d : Design} {m : Model} :
    d.build = .ok m ↔ d.defects = [] ∧ d.assemble = m := by
  rw [build]
  cases d.defects with
  | nil => simp
  | cons defect rest => simp

/-- The components of a design that builds. -/
theorem distinct_of_build {d : Design} {m : Model} (h : d.build = .ok m) :
    (d.components.map Component.name).Nodup ∧ ∀ c ∈ d.components, c.Distinct := by
  have hd := (build_eq_ok_iff.1 h).1
  rw [defects, List.append_eq_nil_iff] at hd
  exact (componentDefects_eq_nil_iff [] _ List.nodup_nil).1 hd.1

end Design

/-! ## Looking up by key -/

/-- The first member with the key of `a` is `a`, where keys differ. -/
theorem find?_key_eq {α κ : Type} [DecidableEq κ] {key : α → κ} {l : List α} (h : (l.map key).Nodup)
    {a : α} (ha : a ∈ l) : l.find? (key · = key a) = some a := by
  cases hf : l.find? (key · = key a) with
  | none => simpa using List.find?_eq_none.1 hf a ha
  | some b =>
    have hb : key b = key a := by simpa using List.find?_some hf
    rw [List.inj_on_of_nodup_map h (List.mem_of_find?_eq_some hf) ha hb]

/-- Where ports of one direction have names of their own, a port is found by its own. -/
theorem Port.findDirected_eq {ports : List Port}
    (h : (ports.map fun p => (p.name, p.direction)).Nodup) {p : Port} (hp : p ∈ ports) :
    Port.findDirected ports p.name p.direction = some p := by
  rw [← find?_key_eq h hp, Port.findDirected]
  simp [Prod.mk.injEq, Bool.decide_and]

namespace Component.Distinct

variable {c : Component} (h : c.Distinct)

include h

theorem findInstance_eq {i : Instance} (hi : i ∈ c.instances) : c.findInstance i.name = some i :=
  find?_key_eq h.instances hi

/-- The ports of one direction have names of their own. -/
theorem nodup_names (direction : Direction) :
    ((c.ports.filter (·.direction = direction)).map Port.name).Nodup := by
  have hsub := h.ports.sublist ((List.filter_sublist (p := (·.direction = direction))).map _)
  refine List.Nodup.map_on (fun p hp q hq e => ?_) (List.Nodup.of_map _ hsub)
  refine List.inj_on_of_nodup_map hsub hp hq (Prod.ext e ?_)
  rw [of_decide_eq_true (List.mem_filter.1 hp).2, of_decide_eq_true (List.mem_filter.1 hq).2]

end Component.Distinct

end Interconnect
