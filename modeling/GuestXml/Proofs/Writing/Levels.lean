import GuestXml.Proofs.Writing.Names

/-!
# Levels are enough

The emission of a value is a recursion on a number of levels, and a value is written with
the levels it takes at most. The values of its child elements take fewer levels
(`Content.forChildren_levels_lt`), so nothing is emitted with other levels that is not emitted
with these (`emit_of_children`).
-/

namespace GuestXml

/-! ### Chains -/

theorem BackingLayer.depth_pos (l : BackingLayer) : 0 < l.depth := by
  obtain ⟨kind, index, format, source, _ | b⟩ := l
  · exact Nat.one_pos
  · exact Nat.succ_pos _

theorem BackingLayer.depth_of_mem {l : BackingLayer} {b : BackingStore}
    (h : b ∈ l.backingStore) : l.depth = b.depth + 1 := by
  obtain ⟨kind, index, format, source, backingStore⟩ := l
  obtain rfl : backingStore = some b := h
  rfl

theorem Disk.backingDepth_of_mem {d : Disk} {b : BackingStore} (h : b ∈ d.backingStore) :
    d.backingDepth = b.depth := by
  rw [Disk.backingDepth, Option.mem_def.mp h]
  rfl

namespace Schema

/-! ### Values of child elements -/

section Children

variable (p : (t : Content) → t.Carrier → Prop)

/-- Every child element that a member writes is for a value with a property. -/
def Field.ForChildren : (f : Field) → f.Carrier → Prop
  | .element _ t, v => p t v
  | .optionalElement _ t, v => ∀ w ∈ v, p t w
  | .elements _ _ t, vs => ∀ w ∈ vs, p t w
  | _, _ => True

/-- Every child element that some members write is for a value with a property. -/
def TupleForChildren : (ms : List Member) → Tuple ms → Prop
  | [], _ => True
  | m :: ms, (v, vs) => m.field.ForChildren p v ∧ TupleForChildren ms vs

/-- Every child element that an alternative writes is for a value with a property. -/
def Alternative.ForChildren : (a : Alternative) → a.Carrier → Prop
  | .group _ g, v => TupleForChildren p g.record.members (g.record.toTuple v)
  | .element _ _ t, v => p t v

/-- Every child element of the alternative of a value is for a value with a property. -/
def AnyOf.ForChildren : {as : List Alternative} → AnyOf as → Prop
  | a :: _, .inl v => a.ForChildren p v
  | _ :: _, .inr v => ForChildren v

/-- Every child element of a content is for a value with a property. -/
def Content.ForChildren : (t : Content) → t.Carrier → Prop
  | .group g, v => TupleForChildren p g.record.members (g.record.toTuple v)
  | .choice c, v => (c.variants.toAny v).ForChildren p
  | .series s, v =>
    TupleForChildren p s.record.members (s.record.toParts v).1 ∧
      ∀ entry ∈ (s.record.toParts v).2, (s.record.choice.variants.toAny entry).ForChildren p

end Children

section Children

variable {p q : (t : Content) → t.Carrier → Prop} (hpq : ∀ t v, p t v → q t v)

include hpq

theorem Field.ForChildren.imp {f : Field} {v : f.Carrier} (h : f.ForChildren p v) :
    f.ForChildren q v := by
  cases f with
  | element name t => exact hpq t v h
  | optionalElement name t => exact fun w hw => hpq t w (h w hw)
  | elements name min t => exact fun w hw => hpq t w (h w hw)
  | _ => trivial

theorem TupleForChildren.imp {ms : List Member} {vs : Tuple ms}
    (h : TupleForChildren p ms vs) : TupleForChildren q ms vs := by
  induction ms with
  | nil => trivial
  | cons m ms ih => exact ⟨Field.ForChildren.imp hpq h.1, ih h.2⟩

theorem AnyOf.ForChildren.imp {as : List Alternative} {v : AnyOf as} (h : v.ForChildren p) :
    v.ForChildren q := by
  induction as with
  | nil => exact nomatch v
  | cons a as ih =>
    cases v with
    | inr w => exact ih h
    | inl w =>
      cases a with
      | group name g => exact TupleForChildren.imp hpq h
      | element name tag t => exact hpq t w h

theorem Content.ForChildren.imp {t : Content} {v : t.Carrier} (h : t.ForChildren p v) :
    t.ForChildren q v := by
  cases t with
  | group g => exact TupleForChildren.imp hpq h
  | choice c => exact AnyOf.ForChildren.imp hpq h
  | series s =>
    exact ⟨TupleForChildren.imp hpq h.1, fun entry hentry =>
      AnyOf.ForChildren.imp hpq (h.2 entry hentry)⟩

end Children

/-! ### Emissions of child elements -/

section Emissions

variable {child child' : (t : Content) → t.Carrier → Option Fragment} {m : Fragment}

/-- Whatever is emitted for a value by one emission is emitted by the other. -/
def Carries (child child' : (t : Content) → t.Carrier → Option Fragment) (t : Content)
    (v : t.Carrier) : Prop :=
  ∀ m, child t v = some m → child' t v = some m

theorem emitAll_carries {α : Type} {emit emit' : α → Option Fragment} {vs : List α}
    (h : ∀ v ∈ vs, ∀ m, emit v = some m → emit' v = some m) (hm : emitAll emit vs = some m) :
    emitAll emit' vs = some m := by
  induction vs generalizing m with
  | nil => exact hm
  | cons v vs ih =>
    obtain ⟨m₁, m₂, hfirst, hrest, rfl⟩ := emitAll_cons_eq_some_iff.mp hm
    exact emitAll_cons_eq_some_iff.mpr ⟨m₁, m₂, h v (by simp) m₁ hfirst,
      ih (fun w hw => h w (by simp [hw])) hrest, rfl⟩

theorem emitChild_carries {name : String} {m? m?' : Option Fragment}
    (h : ∀ m, m? = some m → m?' = some m) (hm : emitChild name m? = some m) :
    emitChild name m?' = some m := by
  obtain ⟨content, hcontent, rfl⟩ := emitChild_eq_some_iff.mp hm
  exact emitChild_eq_some_iff.mpr ⟨content, h content hcontent, rfl⟩

theorem emitField_carries {f : Field} {v : f.Carrier}
    (h : f.ForChildren (Carries child child') v) (hm : emitField child f v = some m) :
    emitField child' f v = some m := by
  cases f with
  | element name t => exact emitChild_carries h hm
  | optionalElement name t =>
    refine emitAll_carries (fun w hw m => emitChild_carries ?_) hm
    exact h w (Option.mem_toList.mp hw)
  | elements name min t =>
    obtain ⟨henough, hm⟩ := emitIf_eq_some_iff.mp hm
    exact emitIf_eq_some_iff.mpr ⟨henough,
      emitAll_carries (fun w hw m => emitChild_carries (h w hw)) hm⟩
  | _ => exact hm

theorem emitTuple_carries {ms : List Member} {vs : Tuple ms}
    (h : TupleForChildren (Carries child child') ms vs) (hm : emitTuple child ms vs = some m) :
    emitTuple child' ms vs = some m := by
  induction ms generalizing m with
  | nil => exact hm
  | cons f ms ih =>
    obtain ⟨m₁, m₂, hfirst, hrest, rfl⟩ := emitTuple_cons_eq_some_iff.mp hm
    exact emitTuple_cons_eq_some_iff.mpr ⟨m₁, m₂, emitField_carries h.1 hfirst, ih h.2 hrest, rfl⟩

theorem emitAny_carries {as : List Alternative} {v : AnyOf as}
    (h : v.ForChildren (Carries child child')) (hm : emitAny child as v = some m) :
    emitAny child' as v = some m := by
  induction as with
  | nil => exact nomatch v
  | cons a as ih =>
    cases v with
    | inr w => exact ih h hm
    | inl w =>
      cases a with
      | group name g => exact emitTuple_carries h hm
      | element name tag t => exact emitChild_carries h hm

theorem emitContent_carries {t : Content} {v : t.Carrier}
    (h : t.ForChildren (Carries child child') v) (hm : emitContent child t v = some m) :
    emitContent child' t v = some m := by
  cases t with
  | group g => exact emitTuple_carries h hm
  | choice c => exact emitAny_carries h hm
  | series s =>
    obtain ⟨m₁, m₂, hmembers, hentries, rfl⟩ := append_eq_some_iff.mp hm
    obtain ⟨henough, hentries⟩ := emitIf_eq_some_iff.mp hentries
    refine append_eq_some_iff.mpr ⟨m₁, m₂, emitTuple_carries h.1 hmembers, ?_, rfl⟩
    exact emitIf_eq_some_iff.mpr ⟨henough,
      emitAll_carries (fun w hw m => emitAny_carries (h.2 w hw)) hentries⟩

end Emissions

/-! ### Types without chains -/

/-- The type of the child elements that a member writes. -/
def Field.childType? : Field → Option Content
  | .element _ t | .optionalElement _ t | .elements _ _ t => some t
  | _ => none

/-- Whether values of a type hold no backing chain. -/
def Content.chainless : Content → Bool
  | .group .disk | .group .devices | .group .domain | .group .domainSnapshot
  | .group .backingLayer | .group .backingLink | .choice .backingStore => false
  | _ => true

theorem Content.levels_of_chainless {t : Content} (h : t.chainless = true) (v : t.Carrier) :
    t.levels v = t.rank := by
  have hchain : t.chain v = 0 := by
    unfold chainless at h
    unfold chain
    split at h <;> simp_all
  rw [levels, hchain, Nat.add_zero]

/-- Whether a type has no chains and a lower rank. -/
def Content.ranksBelow (n : Nat) (t : Content) : Bool :=
  t.chainless && t.rank < n

theorem Content.levels_lt_of_ranksBelow {n levels : Nat} (hn : n ≤ levels) {t : Content}
    (h : t.ranksBelow n = true) (v : t.Carrier) : t.levels v < levels := by
  simp only [ranksBelow, Bool.and_eq_true, decide_eq_true_eq] at h
  rw [levels_of_chainless h.1]
  exact Nat.lt_of_lt_of_le h.2 hn

/-- Whether the child elements of an alternative have no chains and a lower rank. -/
def Alternative.childrenRankBelow (n : Nat) : Alternative → Bool
  | .group _ g => g.record.members.all fun m => m.field.childType?.all (·.ranksBelow n)
  | .element _ _ t => t.ranksBelow n

section Chainless

variable {n levels : Nat} (hn : n ≤ levels)

include hn

theorem tupleForChildren_of_ranksBelow {ms : List Member}
    (h : ∀ m ∈ ms, m.field.childType?.all (·.ranksBelow n) = true) (vs : Tuple ms) :
    TupleForChildren (fun t w => t.levels w < levels) ms vs := by
  induction ms with
  | nil => trivial
  | cons m ms ih =>
    obtain ⟨v, vs⟩ := vs
    refine ⟨?_, ih (fun m' hm' => h m' (by simp [hm'])) vs⟩
    obtain ⟨key, field⟩ := m
    have hfield := h ⟨key, field⟩ (by simp)
    cases field with
    | element name t => exact t.levels_lt_of_ranksBelow hn hfield v
    | optionalElement name t => exact fun w _ => t.levels_lt_of_ranksBelow hn hfield w
    | elements name min t => exact fun w _ => t.levels_lt_of_ranksBelow hn hfield w
    | _ => trivial

theorem anyOfForChildren_of_ranksBelow {as : List Alternative}
    (h : ∀ a ∈ as, a.childrenRankBelow n = true) (v : AnyOf as) :
    v.ForChildren (fun t w => t.levels w < levels) := by
  induction as with
  | nil => exact nomatch v
  | cons a as ih =>
    cases v with
    | inr w => exact ih (fun b hb => h b (by simp [hb])) w
    | inl w =>
      have ha := h a (by simp)
      cases a with
      | group name g => exact tupleForChildren_of_ranksBelow hn (List.all_eq_true.mp ha) _
      | element name tag t => exact t.levels_lt_of_ranksBelow hn ha w

end Chainless

theorem Group.children_ranksBelow (g : Group) (h : (Content.group g).chainless = true) :
    ∀ m ∈ g.record.members, m.field.childType?.all (·.ranksBelow g.rank) = true := by
  revert h
  cases g <;> decide

theorem Choice.children_ranksBelow (c : Choice) (h : (Content.choice c).chainless = true) :
    ∀ a ∈ c.variants.alternatives, a.childrenRankBelow c.rank = true := by
  revert h
  cases c <;> decide

theorem Series.children_ranksBelow (s : Series) :
    (∀ m ∈ s.record.members, m.field.childType?.all (·.ranksBelow s.rank) = true) ∧
      ∀ a ∈ s.record.choice.variants.alternatives, a.childrenRankBelow s.rank = true := by
  cases s <;> decide

/-! ### Types with chains -/

theorem Content.rank_pos (t : Content) : 0 < t.rank := by
  cases t with
  | group g => cases g <;> decide
  | choice c => cases c <;> decide
  | series s => cases s <;> decide

theorem Content.rank_le_levels (t : Content) (v : t.Carrier) : t.rank ≤ t.levels v :=
  Nat.le_add_right _ _

theorem backingDepth_le_chainOfDevices {d : Devices} {disk : Disk} (h : disk ∈ d.disks) :
    disk.backingDepth ≤ chainOfDevices d := by
  unfold chainOfDevices
  generalize d.disks = disks at h
  induction disks with
  | nil => cases h
  | cons first disks ih =>
    rw [List.foldr_cons]
    rcases List.mem_cons.mp h with rfl | h
    · exact Nat.le_max_left _ _
    · exact Nat.le_trans (ih h) (Nat.le_max_right _ _)

theorem chainOfDomain_of_mem {d : Domain} {devices : Devices} (h : devices ∈ d.devices) :
    chainOfDomain d = chainOfDevices devices := by
  rw [chainOfDomain, Option.mem_def.mp h]
  rfl

/-- The chain that starts with an image is longer than what is behind the image. -/
theorem backingLayer_forChildren (l : BackingLayer) :
    TupleForChildren (fun t w => t.levels w < 2 + l.depth) BackingLayer.record.members
      (BackingLayer.record.toTuple l) := by
  have hbelow : 3 ≤ 2 + l.depth := Nat.add_le_add_left l.depth_pos 2
  refine ⟨trivial, trivial, fun w _ => ?_, fun w _ => ?_, fun b hb => ?_, trivial⟩
  · exact Content.levels_lt_of_ranksBelow hbelow rfl w
  · exact Content.levels_lt_of_ranksBelow hbelow rfl w
  · show 2 + b.depth < 2 + l.depth
    rw [BackingLayer.depth_of_mem hb]
    omega

theorem disk_forChildren (d : Disk) :
    TupleForChildren (fun t w => t.levels w < 4 + d.backingDepth) Disk.record.members
      (Disk.record.toTuple d) := by
  have hbelow : 4 ≤ 4 + d.backingDepth := Nat.le_add_right _ _
  refine ⟨trivial, trivial, fun w _ => ?driver, fun w _ => ?source, fun b hb => ?chain, ?target,
    trivial, trivial, trivial, fun w _ => ?boot, fun w _ => ?address, trivial⟩
  case chain =>
    show 2 + b.depth < 4 + d.backingDepth
    rw [Disk.backingDepth_of_mem hb]
    omega
  all_goals exact Content.levels_lt_of_ranksBelow hbelow rfl _

theorem devices_forChildren (d : Devices) :
    TupleForChildren (fun t w => t.levels w < 5 + chainOfDevices d) Devices.record.members
      (Devices.record.toTuple d) := by
  have hbelow : 5 ≤ 5 + chainOfDevices d := Nat.le_add_right _ _
  refine ⟨trivial, fun disk hdisk => ?disk, fun w _ => ?_, fun w _ => ?_, fun w _ => ?_,
    fun w _ => ?_, fun w _ => ?_, fun w _ => ?_, fun w _ => ?_, fun w _ => ?_, fun w _ => ?_,
    trivial⟩
  case disk =>
    have hle := backingDepth_le_chainOfDevices hdisk
    show 4 + disk.backingDepth < 5 + chainOfDevices d
    omega
  all_goals exact Content.levels_lt_of_ranksBelow hbelow rfl _

theorem domain_forChildren (d : Domain) :
    TupleForChildren (fun t w => t.levels w < 6 + chainOfDomain d) Domain.record.members
      (Domain.record.toTuple d) := by
  have hbelow : 6 ≤ 6 + chainOfDomain d := Nat.le_add_right _ _
  refine ⟨trivial, trivial, trivial, trivial, trivial, trivial, ?_, fun w _ => ?_, fun w _ => ?_,
    fun w _ => ?_, ?_, fun w _ => ?_, fun w _ => ?_, fun w _ => ?_, trivial, trivial, trivial,
    fun w _ => ?_, fun devices hdevices => ?devices, trivial⟩
  case devices =>
    show 5 + chainOfDevices devices < 6 + chainOfDomain d
    rw [chainOfDomain_of_mem hdevices]
    omega
  all_goals exact Content.levels_lt_of_ranksBelow hbelow rfl _

theorem domainSnapshot_forChildren (s : DomainSnapshot) :
    TupleForChildren (fun t w => t.levels w < 7 + (s.domain.map chainOfDomain).getD 0)
      DomainSnapshot.record.members (DomainSnapshot.record.toTuple s) := by
  have hbelow : 7 ≤ 7 + (s.domain.map chainOfDomain).getD 0 := Nat.le_add_right _ _
  refine ⟨trivial, trivial, trivial, fun w _ => ?_, trivial, fun w _ => ?_, fun w _ => ?_,
    fun domain hdomain => ?domain, trivial, trivial⟩
  case domain =>
    show 6 + chainOfDomain domain < 7 + (s.domain.map chainOfDomain).getD 0
    rw [Option.mem_def.mp hdomain]
    show 6 + chainOfDomain domain < 7 + chainOfDomain domain
    omega
  all_goals exact Content.levels_lt_of_ranksBelow hbelow rfl _

theorem backingStore_forChildren (b : BackingStore) :
    (BackingStore.variants.toAny b).ForChildren fun t w => t.levels w < 2 + b.depth := by
  cases b with
  | layer l => exact backingLayer_forChildren l
  | done x => exact ⟨trivial, trivial⟩

/-- The values of child elements take fewer levels. -/
theorem Content.forChildren_levels_lt (t : Content) (v : t.Carrier) :
    t.ForChildren (fun t' w => t'.levels w < t.levels v) v := by
  by_cases hchainless : t.chainless = true
  · have hrank := t.rank_le_levels v
    cases t with
    | group g => exact tupleForChildren_of_ranksBelow hrank (g.children_ranksBelow hchainless) _
    | choice c => exact anyOfForChildren_of_ranksBelow hrank (c.children_ranksBelow hchainless) _
    | series s =>
      obtain ⟨hmembers, halternatives⟩ := s.children_ranksBelow
      exact ⟨tupleForChildren_of_ranksBelow hrank hmembers _,
        fun entry _ => anyOfForChildren_of_ranksBelow hrank halternatives _⟩
  · unfold chainless at hchainless
    split at hchainless
    · exact disk_forChildren v
    · exact devices_forChildren v
    · exact domain_forChildren v
    · exact domainSnapshot_forChildren v
    · exact backingLayer_forChildren v
    · exact backingLayer_forChildren v
    · exact backingStore_forChildren v
    · exact absurd rfl hchainless

/-! ### The levels of a value -/

theorem emitLevels_mono {n n' : Nat} (h : n ≤ n') {t : Content} {v : t.Carrier} {m : Fragment}
    (hm : emitLevels n t v = some m) : emitLevels n' t v = some m := by
  induction n generalizing n' t m with
  | zero => exact nomatch hm
  | succ n ih =>
    obtain ⟨k, rfl⟩ := Nat.exists_eq_add_of_le' (Nat.le_trans (Nat.le_add_left 1 n) h)
    refine emitContent_carries ?_ hm
    exact (t.forChildren_levels_lt v).imp fun t' w _ m' hm' =>
      ih (Nat.le_of_succ_le_succ h) hm'

/-- What is emitted with the levels that each child takes is emitted with the levels that the
value takes. -/
theorem Content.emit_of_children {t : Content} {v : t.Carrier} {m : Fragment}
    (hm : emitContent Content.emit t v = some m) : t.emit v = some m := by
  obtain ⟨k, hk⟩ : ∃ k, t.levels v = k + 1 :=
    Nat.exists_eq_add_of_le' (Nat.le_trans t.rank_pos (t.rank_le_levels v))
  rw [Content.emit, hk]
  refine emitContent_carries ?_ hm
  refine (t.forChildren_levels_lt v).imp fun t' w hlevels m' hm' => ?_
  rw [hk] at hlevels
  exact emitLevels_mono (Nat.le_of_lt_succ hlevels) hm'

end Schema

end GuestXml
