/-
Splitting and joining of port references. A name of an instance that is a single segment is found
again by splitting: a qualified reference reads as the instance and the port it was joined from, and
whether it names a constant only depends on the port. Any other text is split at its first dot, and is
refused if there is nothing beside it.
-/
import Interconnect.PortRef
import Mathlib.Data.List.TakeWhile

namespace Interconnect

/-- A name that can stand before a dot: there is something in it, and no dot. -/
structure IsSegment (name : String) : Prop where
  nonempty : name.toList ≠ []
  dotless : '.' ∉ name.toList

namespace PortRef

/-! ## Joining -/

theorem toList_qualify (inst port : String) :
    (qualify inst port).toList = inst.toList ++ '.' :: port.toList := by
  rw [qualify, String.toList_append, String.toList_append, List.append_assoc]
  rfl

theorem isEmpty_qualify (inst port : String) : (qualify inst port).toList.isEmpty = false := by
  rw [toList_qualify]
  simp

theorem dot_mem_qualify (inst port : String) : '.' ∈ (qualify inst port).toList := by
  rw [toList_qualify]
  exact List.mem_append_right _ (List.mem_cons_self ..)

theorem qualify_injective (inst : String) : Function.Injective (qualify inst) := by
  intro a b h
  have hl := congrArg String.toList h
  rw [toList_qualify, toList_qualify, List.append_right_inj] at hl
  exact String.toList_inj.1 (List.cons.inj hl).2

/-! ## Splitting what was joined -/

/-- The first dot is the one after a part that has none. -/
theorem split_append {inst : List Char} (h : '.' ∉ inst) (port : List Char) :
    split (inst ++ '.' :: port) = (some inst, port) := by
  have hall : ∀ c ∈ inst, decide (c ≠ '.') = true := fun c hc =>
    decide_eq_true fun e => h (e ▸ hc)
  have hdrop : (inst ++ '.' :: port).dropWhile (· ≠ '.') = '.' :: port := by
    rw [List.dropWhile_append_of_pos hall]; rfl
  have htake : (inst ++ '.' :: port).takeWhile (· ≠ '.') = inst := by
    rw [List.takeWhile_append_of_pos hall]
    simp
  rw [split, hdrop, htake]

theorem parse_qualify {inst port : String} (hi : IsSegment inst) (hp : port.toList ≠ []) :
    parse (qualify inst port) = .ok ⟨some inst, port⟩ := by
  rw [parse, isEmpty_qualify, toList_qualify, split_append hi.dotless]
  simp [hi.nonempty, hp]

/-- A qualified reference needs a port. -/
theorem exists_parse_qualify_eq_error {inst port : String} (hn : IsSegment inst)
    (hp : port.toList = []) : ∃ fault, parse (qualify inst port) = .error fault := by
  rw [parse, isEmpty_qualify, toList_qualify, split_append hn.dotless]
  simp [hp]

/-- Only the port decides whether a joined reference names a constant. -/
theorem namesConstant_qualify {inst port : String} (hi : IsSegment inst) (hp : port.toList ≠ []) :
    namesConstant (qualify inst port) = true ↔ constantStem.toList <+: port.toList := by
  rw [namesConstant, parse_qualify hi hp]
  exact List.isPrefixOf_iff_prefix

/-! ## Splitting any text -/

theorem split_of_dotless {raw : List Char} (h : '.' ∉ raw) : split raw = (none, raw) := by
  have hall : ∀ c ∈ raw, decide (c ≠ '.') = true := fun c hc => decide_eq_true fun e => h (e ▸ hc)
  have hdrop : raw.dropWhile (· ≠ '.') = [] := List.dropWhile_eq_nil_iff.2 hall
  rw [split, hdrop]

theorem parse_of_dotless {raw : String} (hne : raw ≠ "") (hdot : '.' ∉ raw.toList) :
    parse raw = .ok ⟨none, raw⟩ := by
  have hsome : raw.toList.isEmpty = false := by simpa using hne
  rw [parse, hsome, split_of_dotless hdot]
  simp

/-- A text is split at a dot that nothing with a dot stands before. -/
theorem parse_of_joined {inst port : String} (hdot : '.' ∉ inst.toList) :
    parse (qualify inst port) =
      if inst = "" ∨ port = "" then .error (.emptySegment (qualify inst port))
      else .ok ⟨some inst, port⟩ := by
  rw [parse, isEmpty_qualify, toList_qualify, split_append hdot]
  simp

/-- A text is empty, has no dot, or is joined at its first one. -/
theorem empty_or_dotless_or_joined (raw : String) :
    raw = "" ∨ (raw ≠ "" ∧ '.' ∉ raw.toList) ∨
      ∃ inst port, '.' ∉ inst.toList ∧ raw = qualify inst port := by
  by_cases hempty : raw = ""
  · exact .inl hempty
  · by_cases hdot : '.' ∈ raw.toList
    · obtain ⟨inst, port, hraw, hinst⟩ := List.eq_append_cons_of_mem hdot
      refine .inr (.inr ⟨String.ofList inst, String.ofList port, by simpa using hinst, ?_⟩)
      apply String.toList_inj.1
      rw [toList_qualify, hraw, String.toList_ofList, String.toList_ofList]
    · exact .inr (.inl ⟨hempty, hdot⟩)

/-- The text has a dot, and nothing stands before its first dot or nothing behind it. -/
def LacksSegment (raw : String) : Prop :=
  ∃ inst port : String, '.' ∉ inst.toList ∧ raw = qualify inst port ∧ (inst = "" ∨ port = "")

theorem not_lacksSegment_of_dotless {raw : String} (hdot : '.' ∉ raw.toList) : ¬ LacksSegment raw := by
  rintro ⟨inst, port, -, rfl, -⟩
  exact hdot (dot_mem_qualify inst port)

/-- A text has one first dot only. -/
theorem lacksSegment_qualify_iff {inst port : String} (hdot : '.' ∉ inst.toList) :
    LacksSegment (qualify inst port) ↔ inst = "" ∨ port = "" := by
  constructor
  · rintro ⟨inst', port', hdot', heq, hlack⟩
    have hsplit := congrArg (fun raw => split raw.toList) heq
    simp only [toList_qualify, split_append hdot, split_append hdot', Prod.mk.injEq,
      Option.some.injEq, String.toList_inj] at hsplit
    rwa [hsplit.1, hsplit.2]
  · intro hlack
    exact ⟨inst, port, hdot, rfl, hlack⟩

/-- The reference says what the text does: it names an instance if the text has a dot. -/
structure Reads (r : PortRef) (raw : String) : Prop where
  qualified : r.instance?.isSome = true ↔ '.' ∈ raw.toList
  segment : ∀ inst, r.instance? = some inst → IsSegment inst
  port : r.port ≠ ""
  text : r.text = raw

theorem reads_of_parse {raw : String} {r : PortRef} (h : parse raw = .ok r) : r.Reads raw := by
  rcases empty_or_dotless_or_joined raw with rfl | ⟨hne, hdot⟩ | ⟨inst, port, hdot, rfl⟩
  · cases h
  · rw [parse_of_dotless hne hdot] at h
    cases h
    exact ⟨by simp [hdot], nofun, hne, rfl⟩
  · rw [parse_of_joined hdot] at h
    split at h
    · cases h
    · rename_i hsegments
      cases h
      obtain ⟨hinst, hport⟩ := not_or.1 hsegments
      refine ⟨by simp [dot_mem_qualify], fun inst' hinst' => ?_, hport, rfl⟩
      cases hinst'
      exact ⟨by simpa using hinst, hdot⟩

/-- What becomes of a text: each of the three outcomes has its own kind of texts. -/
theorem parse_cases (raw : String) :
    (raw = "" ∧ parse raw = .error .empty) ∨
    (raw ≠ "" ∧ LacksSegment raw ∧ parse raw = .error (.emptySegment raw)) ∨
    (raw ≠ "" ∧ ¬ LacksSegment raw ∧ ∃ r, parse raw = .ok r) := by
  rcases empty_or_dotless_or_joined raw with rfl | ⟨hne, hdot⟩ | ⟨inst, port, hdot, rfl⟩
  · exact .inl ⟨rfl, rfl⟩
  · exact .inr (.inr ⟨hne, not_lacksSegment_of_dotless hdot, _, parse_of_dotless hne hdot⟩)
  · have hne : qualify inst port ≠ "" := by
      have := isEmpty_qualify inst port
      simpa using this
    by_cases hlack : inst = "" ∨ port = ""
    · refine .inr (.inl ⟨hne, (lacksSegment_qualify_iff hdot).2 hlack, ?_⟩)
      rw [parse_of_joined hdot, if_pos hlack]
    · refine .inr (.inr ⟨hne, mt (lacksSegment_qualify_iff hdot).1 hlack, ⟨some inst, port⟩, ?_⟩)
      rw [parse_of_joined hdot, if_neg hlack]

theorem parse_eq_empty_iff (raw : String) : parse raw = .error .empty ↔ raw = "" := by
  rcases parse_cases raw with ⟨rfl, h⟩ | ⟨hne, -, h⟩ | ⟨hne, -, r, h⟩
  · simp [h]
  · simp [h, hne]
  · simp [h, hne]

theorem parse_eq_emptySegment_iff (raw text : String) :
    parse raw = .error (.emptySegment text) ↔ text = raw ∧ LacksSegment raw := by
  rcases parse_cases raw with ⟨rfl, h⟩ | ⟨-, hlack, h⟩ | ⟨-, hlack, r, h⟩
  · have hlack : ¬ LacksSegment "" := not_lacksSegment_of_dotless (by simp)
    simp [h, hlack]
  · simp [h, hlack, eq_comm]
  · simp [h, hlack]

theorem exists_parse_iff (raw : String) :
    (∃ r, parse raw = .ok r) ↔ raw ≠ "" ∧ ¬ LacksSegment raw := by
  rcases parse_cases raw with ⟨rfl, h⟩ | ⟨-, hlack, h⟩ | ⟨hne, hlack, r, h⟩
  · simp [h]
  · simp [h, hlack]
  · simp [h, hne, hlack]

/-- A text is refused if it is empty, or if a segment beside its first dot is; any other text is read as
what it says. Joining a segment and a port is undone by splitting, and nothing else that is joined is. -/
theorem parse_undoes_qualify (raw inst port : String) :
    (parse raw = .error .empty ↔ raw = "") ∧
    (∀ text, parse raw = .error (.emptySegment text) ↔ text = raw ∧ LacksSegment raw) ∧
    ((∃ r, parse raw = .ok r) ↔ raw ≠ "" ∧ ¬ LacksSegment raw) ∧
    (∀ r, parse raw = .ok r → r.Reads raw) ∧
    (parse (qualify inst port) = .ok ⟨some inst, port⟩ ↔ IsSegment inst ∧ port ≠ "") ∧
    (IsSegment inst → port ≠ "" →
      (namesConstant (qualify inst port) = true ↔ constantStem.toList <+: port.toList)) := by
  have hport : port.toList ≠ [] ↔ port ≠ "" := by simp
  have hread : parse (qualify inst port) = .ok ⟨some inst, port⟩ ↔ IsSegment inst ∧ port ≠ "" := by
    constructor
    · intro h
      exact ⟨(reads_of_parse h).segment inst rfl, (reads_of_parse h).port⟩
    · rintro ⟨hinst, hne⟩
      exact parse_qualify hinst (hport.2 hne)
  exact ⟨parse_eq_empty_iff raw, parse_eq_emptySegment_iff raw, exists_parse_iff raw,
    fun r => reads_of_parse, hread, fun hinst hne => namesConstant_qualify hinst (hport.2 hne)⟩

end PortRef

end Interconnect
