import GuestXml.Proofs.Document.Leftover
import GuestXml.Proofs.Reading.Grammar

/-!
# Groups accept the grammar of their tables

A group is loaded exactly from the elements that its members ask for: they accept the
attributes and the text, and the children are blocks of the members in order and a rest
without a name of any member, which has to be empty where unknown children are denied. If the
rest of the greedy blocks has such a name, the first child with one is out of order:
`Content.load_group_iff_matches`. Of blocks that are not greedy this does not hold
(`Content.load_group_shorter_block`).
-/

namespace GuestXml.Schema

open Xml (Element)

namespace Content

variable {g : Group} {o : LoadOptions} {e : Element}

/-- The members of a group are read on greedy blocks, and the rest is left over. -/
theorem readMembers_group_iff (hg : ∀ m ∈ g.record.members, m.field ≠ .noContent)
    (hfits : e.height ≤ max o.maxDepth 1) {rest : List Element} :
    (∃ v, (group g).readMembers o e = .ok (v, rest)) ↔
      (∀ m ∈ g.record.members, m.field.Accepts e) ∧
        MatchesGreedily o g.record.members e.childElements rest := by
  let scan := scanTuple (.root o e) (scanBelowRoot o) g.record.members
  have hmembers : (group g).scanMembers o e = (do return g.record.ofTuple (← scan)) := rfl
  rw [← scanTuple_ok_iff hfits hg (s := { rest := e.childElements }) fun c hc => hc,
    readMembers_eq_scan, hmembers, ← map_eq_pure_bind]
  constructor
  · rintro ⟨v, hv⟩
    cases hscan : scan { rest := e.childElements } with
    | error err =>
      rw [ScanM.map_of_error hscan] at hv
      cases hv
    | ok p =>
      obtain ⟨vs, s⟩ := p
      rw [ScanM.map_of_ok hscan] at hv
      cases hv
      exact ⟨vs, s, hscan, rfl⟩
  · rintro ⟨vs, s, hscan, rfl⟩
    exact ⟨g.record.ofTuple vs, by rw [ScanM.map_of_ok hscan]; rfl⟩

/-- A child that the members of a group left over is at fault if a member has its name or
unknown children are denied. -/
theorem leftoverFault?_group {v : g.Carrier} {c : Element} :
    (group g).leftoverFault? o e v c = none ↔
      c.name ∉ childNames g.record.members ∧ o.denyUnknown = false := by
  rw [leftoverFault?_eq_none_iff]
  simp [slotNames, overlookedNames]

/-- What becomes of a group once its members have been read. -/
theorem load_of_readMembers (htag : ∀ tag ∈ (group g).tag?, e.name = tag) {v : g.Carrier}
    {rest : List Element} (h : (group g).readMembers o e = .ok (v, rest)) :
    (group g).load o e =
      match rest.findSome? ((group g).leftoverFault? o e v) with
      | some err => .error err
      | none => .ok v := by
  rw [load_eq_readMembers, tagMismatch?_eq_none_iff.mpr htag, h]
  rfl

/-- A group is loaded if its members are read and no child that they left over is at fault. -/
theorem load_group_eq_ok_iff (htag : ∀ tag ∈ (group g).tag?, e.name = tag) {v : g.Carrier} :
    (group g).load o e = .ok v ↔
      ∃ rest, (group g).readMembers o e = .ok (v, rest) ∧
        ∀ c ∈ rest, c.name ∉ childNames g.record.members ∧ o.denyUnknown = false := by
  cases hread : (group g).readMembers o e with
  | error err =>
    rw [load_eq_readMembers, tagMismatch?_eq_none_iff.mpr htag, hread]
    simp [Except.bind]
  | ok p =>
    obtain ⟨w, rest⟩ := p
    have hfaultless : rest.findSome? ((group g).leftoverFault? o e w) = none ↔
        ∀ c ∈ rest, c.name ∉ childNames g.record.members ∧ o.denyUnknown = false := by
      rw [List.findSome?_eq_none_iff]
      exact forall₂_congr fun c _ => leftoverFault?_group
    rw [load_of_readMembers htag hread]
    constructor
    · intro hload
      split at hload
      · cases hload
      · rename_i hnone
        cases hload
        exact ⟨rest, rfl, hfaultless.mp hnone⟩
    · rintro ⟨rest', hrest', hclean⟩
      cases hrest'
      rw [hfaultless.mpr hclean]

/-- **Groups accept the grammar of their tables.** The members have different names. An
element that fits under the limit is loaded if and only if the members accept its attributes
and text, and its children are blocks of the members, in order, and a rest in which no member
has a name; the rest is empty where unknown children are denied. Where they are not, and only
the rest of the greedy blocks is wrong, the error names the first child in it that has the
name of a member. The error is about the greedy blocks because others may be cut shorter: an
optional member may leave a child to the rest that has its name. -/
theorem load_group_iff_matches (hg : ∀ m ∈ g.record.members, m.field ≠ .noContent)
    (htag : ∀ tag ∈ (group g).tag?, e.name = tag) (hfits : e.height ≤ o.maxDepth) :
    (childNames g.record.members).Nodup ∧
    ((∃ v, (group g).load o e = .ok v) ↔
      (∀ m ∈ g.record.members, m.field.Accepts e) ∧
        ∃ rest, Matches o g.record.members e.childElements rest ∧
          (o.denyUnknown = true → rest = []) ∧
          ∀ c ∈ rest, c.name ∉ childNames g.record.members) ∧
    (o.denyUnknown = false → (∀ m ∈ g.record.members, m.field.Accepts e) →
      ∀ rest, MatchesGreedily o g.record.members e.childElements rest →
        ∀ c, rest.find? (fun c => decide (c.name ∈ childNames g.record.members)) = some c →
          (group g).load o e = .error (.outOfOrder e.name c.name)) := by
  have hroom : e.height ≤ max o.maxDepth 1 := Nat.le_trans hfits (Nat.le_max_left _ 1)
  refine ⟨g.separate.children, ⟨?_, ?_⟩, ?_⟩
  · rintro ⟨v, hload⟩
    obtain ⟨rest, hread, hclean⟩ := (load_group_eq_ok_iff htag).mp hload
    obtain ⟨haccepts, hgreedily⟩ := (readMembers_group_iff hg hroom).mp ⟨v, hread⟩
    refine ⟨haccepts, rest, hgreedily.matches, fun hdeny => ?_, fun c hc => (hclean c hc).1⟩
    refine List.eq_nil_iff_forall_not_mem.mpr fun c hc => ?_
    rw [(hclean c hc).2] at hdeny
    cases hdeny
  · rintro ⟨haccepts, rest, hmatches, hempty, hunknown⟩
    have hgreedily := hmatches.greedily g.separate.children hunknown
    obtain ⟨v, hv⟩ := (readMembers_group_iff hg hroom).mpr ⟨haccepts, hgreedily⟩
    refine ⟨v, (load_group_eq_ok_iff htag).mpr ⟨rest, hv, fun c hc => ⟨hunknown c hc, ?_⟩⟩⟩
    rw [Bool.eq_false_iff]
    intro hdeny
    rw [hempty hdeny] at hc
    cases hc
  · intro hlenient haccepts rest hgreedily c hc
    obtain ⟨v, hv⟩ := (readMembers_group_iff hg hroom).mpr ⟨haccepts, hgreedily⟩
    obtain ⟨hname, before, after, rfl, hbefore⟩ := List.find?_eq_some_iff_append.mp hc
    have hnone : before.findSome? ((group g).leftoverFault? o e v) = none := by
      refine List.findSome?_eq_none_iff.mpr fun c' hc' => leftoverFault?_group.mpr ⟨?_, hlenient⟩
      simpa using hbefore c' hc'
    have hfault : (group g).leftoverFault? o e v c = some (.outOfOrder e.name c.name) :=
      if_pos ⟨of_decide_eq_true hname, by simp [overlookedNames]⟩
    rw [load_of_readMembers htag hv, List.findSome?_append, hnone, Option.none_or,
      List.findSome?_cons, hfault]

/-- A cache with an unknown child behind its members is loaded. With a second size behind that
child it is not: the size is out of order. -/
theorem load_group_iff_matches_cache :
    let size : Element := { name := "size", children := [.text "512"] }
    let line : Element := { name := "line", attributes := [("unit", "B")], children := [.text "64"] }
    let junk : Element := { name := "junk" }
    let e : Element :=
      { name := "cache",
        attributes := [("level", "2"), ("associativity", "full"), ("policy", "writeback")],
        children := [.element size, .element line, .element junk] }
    let e' : Element := e.pushElement size
    (∀ m ∈ Group.cache.record.members, m.field ≠ .noContent) ∧
      (∀ tag ∈ (group .cache).tag?, e.name = tag) ∧ e'.height ≤ 2 ∧
      (∃ v, (group .cache).load { maxDepth := 2 } e = .ok v) ∧
      (group .cache).load { maxDepth := 2 } e' = .error (.outOfOrder "cache" "size") := by
  intro size line junk e e'
  let o : LoadOptions := { maxDepth := 2 }
  have hg : ∀ m ∈ Group.cache.record.members, m.field ≠ .noContent := by decide +kernel
  have htag : ∀ tag ∈ (group .cache).tag?, e.name = tag := by simp [tag?, e]
  have haccepts : ∀ m ∈ Group.cache.record.members, m.field.Accepts e := by
    refine List.forall_mem_cons.mpr ⟨⟨"2", rfl, UnsignedInt.ofNat 2, by decide +kernel⟩, ?_⟩
    refine List.forall_mem_cons.mpr ⟨⟨"full", rfl, .named .full, by decide +kernel⟩, ?_⟩
    refine List.forall_mem_cons.mpr ⟨⟨"writeback", rfl, .writeback, by decide +kernel⟩, ?_⟩
    exact List.forall_mem_cons.mpr ⟨trivial, List.forall_mem_cons.mpr ⟨trivial, by simp⟩⟩
  have hattribute : ∀ (f : Field) (more : List Element), f.childName? = none → f.Admits 0 →
      f.IsBlock o [] ∧ f.IsFull [] more := by
    intro f more hchild hadmits
    refine ⟨⟨hadmits, by simp, by simp⟩, fun c _ hname => ?_⟩
    rw [hchild] at hname
    cases hname
  have hrequired : ∀ (name : String) (t : Content) (c : Element) (more : List Element),
      c.name = name → (∃ v n, t.readRoot o c = .ok (v, n)) →
        (Field.element name t).IsBlock o [c] ∧ (Field.element name t).IsFull [c] more := by
    intro name t c more hname hread
    refine ⟨⟨rfl, by simp [Field.childName?, hname], by simpa [Field.AcceptsChild] using hread⟩, ?_⟩
    intro _ _ _ htwo
    cases htwo
  have hgreedily : ∀ rest, MatchesGreedily o Group.cache.record.members (size :: line :: rest) rest := by
    intro rest
    refine ⟨[], _, rfl, hattribute _ _ rfl rfl, [], _, rfl, hattribute _ _ rfl rfl,
      [], _, rfl, hattribute _ _ rfl rfl, [size], _, rfl, hrequired _ _ _ _ rfl ?_,
      [line], _, rfl, hrequired _ _ _ _ rfl ?_, rfl⟩
    · exact ⟨{ unit := none, value := .lit 512 }, 0, by decide +kernel⟩
    · exact ⟨{ unit := some .b, value := .lit 64 }, 0, by decide +kernel⟩
  obtain ⟨-, hload, -⟩ := load_group_iff_matches hg htag (o := o) (e := e) (by decide)
  obtain ⟨-, -, herror⟩ := load_group_iff_matches hg htag (o := o) (e := e') (by decide)
  refine ⟨hg, htag, by decide, ?_, ?_⟩
  · refine hload.mpr ⟨haccepts, [junk], (hgreedily [junk]).matches, fun hdeny => ?_, ?_⟩
    · cases hdeny
    · decide +kernel
  · exact herror rfl haccepts [junk, size] (hgreedily [junk, size]) size (by decide +kernel)

/-- A block that is cut shorter leaves the error open. Of two disks the first alone is a block, and
leaves a child to the rest that has the name of a member; everything else about that is right. But
the second disk is read too, and it is the name it misses that is the error. -/
theorem load_group_shorter_block :
    let named : Element := { name := "disk", attributes := [("name", "vda")] }
    let nameless : Element := { name := "disk" }
    let e : Element := { name := "disks", children := [.element named, .element nameless] }
    let ms := Group.snapshotDisks.record.members
    (∀ m ∈ ms, m.field ≠ .noContent) ∧ (∀ tag ∈ (group .snapshotDisks).tag?, e.name = tag) ∧
      e.height ≤ ({} : LoadOptions).maxDepth ∧ (∀ m ∈ ms, m.field.Accepts e) ∧
      Matches {} ms e.childElements [nameless] ∧
      [nameless].find? (fun c => decide (c.name ∈ childNames ms)) = some nameless ∧
      (group .snapshotDisks).load {} e = .error (.missingAttribute "disk" "name") := by
  intro named nameless e ms
  have haccepts : (Field.elements "disk" 0 (.group .snapshotDisk)).AcceptsChild {} named := by
    refine ⟨{ name := "vda" }, 0, ?_⟩
    decide +kernel
  have hblock : (Field.elements "disk" 0 (.group .snapshotDisk)).IsBlock {} [named] := by
    refine ⟨Nat.zero_le _, ?_, ?_⟩
    · exact List.forall_mem_singleton.mpr rfl
    · exact List.forall_mem_singleton.mpr haccepts
  refine ⟨by decide +kernel, nofun, by decide, List.forall_mem_singleton.mpr trivial,
    ⟨[named], [nameless], rfl, hblock, rfl⟩, by decide +kernel, by decide +kernel⟩

end Content

end GuestXml.Schema
