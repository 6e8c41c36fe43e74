import GuestXml.Proofs.Writing.Levels
import GuestXml.Proofs.Xml.Tree

/-!
# Chains in written elements

The value of every child element is emitted into the element of its parent
(`emitContent_forChildren`), so each image of a backing chain is a level of elements of its
own. The chain of a value is therefore no longer than the written element is high, and
shorter by the levels that stand above chains in its type (`chain_le_of_emitLevels`).
-/

namespace GuestXml.Schema

open Xml (Element)

/-! ### Children in a fragment -/

/-- A value is emitted as a child element of a fragment. -/
def EmittedIn (child : (t : Content) → t.Carrier → Option Fragment) (m : Fragment)
    (t : Content) (v : t.Carrier) : Prop :=
  ∃ content name, child t v = some content ∧ content.toElement name ∈ m.elements

section Fragments

variable {child : (t : Content) → t.Carrier → Option Fragment} {m m' : Fragment}

theorem EmittedIn.mono {t : Content} {v : t.Carrier} (h : EmittedIn child m t v)
    (hm : ∀ c ∈ m.elements, c ∈ m'.elements) : EmittedIn child m' t v := by
  obtain ⟨content, name, hcontent, hmem⟩ := h
  exact ⟨content, name, hcontent, hm _ hmem⟩

theorem emitChild_emittedIn {name : String} {t : Content} {v : t.Carrier}
    (hm : emitChild name (child t v) = some m) : EmittedIn child m t v := by
  obtain ⟨content, hcontent, rfl⟩ := emitChild_eq_some_iff.mp hm
  exact ⟨content, name, hcontent, by simp [Fragment.elements]⟩

/-- What is emitted for one of several values is part of the whole. -/
theorem exists_of_mem_emitAll {α : Type} {emit : α → Option Fragment} {vs : List α} {v : α}
    (hm : emitAll emit vs = some m) (hv : v ∈ vs) :
    ∃ m₁, emit v = some m₁ ∧ ∀ c ∈ m₁.elements, c ∈ m.elements := by
  induction vs generalizing m with
  | nil => cases hv
  | cons w vs ih =>
    obtain ⟨m₁, m₂, hfirst, hrest, rfl⟩ := emitAll_cons_eq_some_iff.mp hm
    rw [Fragment.elements_append]
    rcases List.mem_cons.mp hv with rfl | hv
    · exact ⟨m₁, hfirst, fun c hc => List.mem_append_left _ hc⟩
    · obtain ⟨m', hm', hsub⟩ := ih hrest hv
      exact ⟨m', hm', fun c hc => List.mem_append_right _ (hsub c hc)⟩

theorem emitAll_emittedIn {name : String} {t : Content} {vs : List t.Carrier} {v : t.Carrier}
    (hm : emitAll (fun w => emitChild name (child t w)) vs = some m) (hv : v ∈ vs) :
    EmittedIn child m t v := by
  obtain ⟨m₁, hm₁, hsub⟩ := exists_of_mem_emitAll hm hv
  exact (emitChild_emittedIn hm₁).mono hsub

theorem emitField_forChildren {f : Field} {v : f.Carrier} (hm : emitField child f v = some m) :
    f.ForChildren (EmittedIn child m) v := by
  cases f with
  | element name t => exact emitChild_emittedIn hm
  | optionalElement name t => exact fun w hw => emitAll_emittedIn hm (Option.mem_toList.mpr hw)
  | elements name min t => exact fun w hw => emitAll_emittedIn (emitIf_eq_some_iff.mp hm).2 hw
  | _ => trivial

theorem emitTuple_forChildren {ms : List Member} {vs : Tuple ms}
    (hm : emitTuple child ms vs = some m) : TupleForChildren (EmittedIn child m) ms vs := by
  induction ms generalizing m with
  | nil => trivial
  | cons f ms ih =>
    obtain ⟨v, vs⟩ := vs
    obtain ⟨m₁, m₂, hfirst, hrest, rfl⟩ := emitTuple_cons_eq_some_iff.mp hm
    constructor
    · refine Field.ForChildren.imp (fun t w h => h.mono fun c hc => ?_)
        (emitField_forChildren hfirst)
      rw [Fragment.elements_append]
      exact List.mem_append_left _ hc
    · refine TupleForChildren.imp (fun t w h => h.mono fun c hc => ?_) (ih hrest)
      rw [Fragment.elements_append]
      exact List.mem_append_right _ hc

theorem emitAny_forChildren {as : List Alternative} {v : AnyOf as}
    (hm : emitAny child as v = some m) : v.ForChildren (EmittedIn child m) := by
  induction as with
  | nil => exact nomatch v
  | cons a as ih =>
    cases v with
    | inr w => exact ih hm
    | inl w =>
      cases a with
      | group name g => exact emitTuple_forChildren hm
      | element name tag t => exact emitChild_emittedIn hm

/-- Every child value is emitted as a child element. -/
theorem emitContent_forChildren {t : Content} {v : t.Carrier}
    (hm : emitContent child t v = some m) : t.ForChildren (EmittedIn child m) v := by
  cases t with
  | group g => exact emitTuple_forChildren hm
  | choice c => exact emitAny_forChildren hm
  | series s =>
    obtain ⟨m₁, m₂, hmembers, hentries, rfl⟩ := append_eq_some_iff.mp hm
    constructor
    · refine TupleForChildren.imp (fun t w h => h.mono fun c hc => ?_)
        (emitTuple_forChildren hmembers)
      rw [Fragment.elements_append]
      exact List.mem_append_left _ hc
    · intro entry hentry
      obtain ⟨m', hm', hsub⟩ := exists_of_mem_emitAll (emitIf_eq_some_iff.mp hentries).2 hentry
      refine AnyOf.ForChildren.imp (fun t w h => h.mono fun c hc => ?_) (emitAny_forChildren hm')
      rw [Fragment.elements_append]
      exact List.mem_append_right _ (hsub c hc)

end Fragments

/-! ### Chains and heights -/

/-- The levels of elements that stand above the backing chains in a value. -/
def Content.aboveChain : Content → Nat
  | .group .disk => 1
  | .group .devices => 2
  | .group .domain => 3
  | .group .domainSnapshot => 4
  | _ => 0

theorem chainOfDevices_le {d : Devices} {n : Nat} (h : ∀ disk ∈ d.disks, disk.backingDepth ≤ n) :
    chainOfDevices d ≤ n := by
  unfold chainOfDevices
  generalize d.disks = disks at h
  induction disks with
  | nil => exact Nat.zero_le n
  | cons first disks ih =>
    rw [List.foldr_cons]
    exact Nat.max_le.mpr ⟨h first List.mem_cons_self,
      ih fun disk hdisk => h disk (List.mem_cons_of_mem first hdisk)⟩

section Chains

variable {n : Nat}

/-- A value whose children have chains of that many images at most, and fewer if there are
levels above the chain. -/
def Content.ChildrenWithin (n : Nat) (t : Content) (v : t.Carrier) : Prop :=
  t.ForChildren (fun t' w => t'.chain w ≤ n - t'.aboveChain) v

theorem depth_le_of_layer {l : BackingLayer}
    (h : Content.ChildrenWithin n (.group .backingLayer) l) : l.depth ≤ n + 1 := by
  obtain ⟨-, -, -, -, hstore, -⟩ := h
  cases hb : l.backingStore with
  | none =>
    obtain ⟨kind, index, format, source, backingStore⟩ := l
    obtain rfl : backingStore = none := hb
    exact Nat.le_add_left 1 n
  | some b =>
    have hle : b.depth ≤ n := hstore b hb
    rw [BackingLayer.depth_of_mem hb]
    omega

theorem chain_le_of_disk {d : Disk} (h : Content.ChildrenWithin n (.group .disk) d) :
    d.backingDepth ≤ n := by
  obtain ⟨-, -, -, -, hstore, -⟩ := h
  cases hb : d.backingStore with
  | none =>
    rw [Disk.backingDepth, hb]
    exact Nat.zero_le n
  | some b =>
    rw [Disk.backingDepth_of_mem hb]
    exact hstore b hb

theorem chain_le_of_devices {d : Devices} (h : Content.ChildrenWithin n (.group .devices) d) :
    chainOfDevices d ≤ n - 1 :=
  chainOfDevices_le h.2.1

theorem chain_le_of_domain {d : Domain} (h : Content.ChildrenWithin n (.group .domain) d) :
    chainOfDomain d ≤ n - 2 := by
  obtain ⟨-, -, -, -, -, -, -, -, -, -, -, -, -, -, -, -, -, -, hdevices, -⟩ := h
  cases hd : d.devices with
  | none =>
    rw [chainOfDomain, hd]
    exact Nat.zero_le _
  | some devices =>
    rw [chainOfDomain_of_mem hd]
    exact hdevices devices hd

theorem chain_le_of_domainSnapshot {s : DomainSnapshot}
    (h : Content.ChildrenWithin n (.group .domainSnapshot) s) :
    (s.domain.map chainOfDomain).getD 0 ≤ n - 3 := by
  obtain ⟨-, -, -, -, -, -, -, hdomain, -⟩ := h
  cases hd : s.domain with
  | none => exact Nat.zero_le _
  | some domain => exact hdomain domain hd

/-- The chain of a value goes at most one level above those of its children. -/
theorem Content.chain_le_of_children {t : Content} {v : t.Carrier} (h : t.ChildrenWithin n v) :
    t.chain v ≤ n + 1 - t.aboveChain := by
  by_cases hchainless : t.chainless = true
  · have hlevels := t.levels_of_chainless hchainless v
    rw [levels] at hlevels
    omega
  · unfold chainless at hchainless
    split at hchainless
    · exact chain_le_of_disk h
    · have hle := chain_le_of_devices h
      show chainOfDevices v ≤ n + 1 - 2
      omega
    · have hle := chain_le_of_domain h
      show chainOfDomain v ≤ n + 1 - 3
      omega
    · have hle := chain_le_of_domainSnapshot h
      show _ ≤ n + 1 - 4
      exact Nat.le_trans hle (by omega)
    · exact depth_le_of_layer h
    · exact depth_le_of_layer h
    · cases v with
      | layer l => exact depth_le_of_layer h
      | done b => exact Nat.zero_le _
    · exact absurd rfl hchainless

/-- The chain of a value is no longer than what was emitted for it is high. By induction on
the levels of the emission. -/
theorem chain_le_of_emitLevels {levels : Nat} {t : Content} {v : t.Carrier} {m : Fragment}
    (hm : emitLevels levels t v = some m) (hheights : ∀ c ∈ m.elements, c.height ≤ n) :
    t.chain v ≤ n + 1 - t.aboveChain := by
  induction levels generalizing t m n with
  | zero => exact nomatch hm
  | succ levels ih =>
    refine Content.chain_le_of_children ?_
    refine (emitContent_forChildren hm).imp ?_
    rintro t' w ⟨content, name, hcontent, hmem⟩
    have hheight := hheights _ hmem
    have hpos := Element.height_pos (content.toElement name)
    obtain ⟨k, rfl⟩ := Nat.exists_eq_add_of_le' (Nat.le_trans hpos hheight)
    rw [Element.height_le_succ_iff, Fragment.childElements_toElement] at hheight
    exact ih hcontent hheight

end Chains

end GuestXml.Schema
