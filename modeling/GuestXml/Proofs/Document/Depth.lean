import GuestXml.Proofs.Reading.Agreement
import GuestXml.Proofs.Reading.Depth
import GuestXml.Proofs.RoundTrip.Resave
import GuestXml.Proofs.Writing.Chains
import GuestXml.Proofs.Xml.Depth
import GuestXml.Proofs.Xml.RoundTrip

/-!
# The limit on nesting only cuts

A lower limit never changes a result: reading a text and loading an element come to the same
under both limits, or to the error of the lower one. Text is refused exactly if its document
is higher than the limit, and an element that is no higher is loaded without that error, so
the second check never fails where the first has passed. The images of every backing chain
that was loaded fit under the limit: `Content.limit_only_cuts`.
-/

namespace GuestXml.Schema

open Xml (Element)

namespace Content

variable {t : Content}

theorem readRoot_cut (t : Content) (denyUnknown : Bool) {a b : Nat} (hab : a ≤ b) (e : Element) :
    CutAt (max a 1) (max a 1) e (t.readRoot { maxDepth := a, denyUnknown } e)
      (t.readRoot { maxDepth := b, denyUnknown } e) := by
  rw [readRoot_eq_scan, readRoot_eq_scan]
  exact scanLevels_cut denyUnknown (by dsimp only; omega) t e

/-- Loading comes to the same under a higher limit, or is cut by its own. -/
theorem load_cut (t : Content) (denyUnknown : Bool) {a b : Nat} (hab : a ≤ b) (e : Element) :
    (t.load { maxDepth := a, denyUnknown } e = t.load { maxDepth := b, denyUnknown } e ∨
        t.load { maxDepth := a, denyUnknown } e = .error (.depthExceeded (max a 1))) ∧
      (e.height ≤ max a 1 →
        ∀ limit, t.load { maxDepth := a, denyUnknown } e ≠ .error (.depthExceeded limit)) := by
  have hcut := readRoot_cut t denyUnknown hab e
  unfold load loadCounted
  cases htag : t.tagMismatch? e with
  | some err =>
    refine ⟨.inl rfl, fun _ limit heq => ?_⟩
    obtain rfl := Except.error.inj heq
    unfold tagMismatch? at htag
    split at htag
    · split at htag <;> cases htag
    · cases htag
  | none =>
    constructor
    · rcases hcut.eq with hsame | hdeep
      · exact .inl (by rw [hsame])
      · exact .inr (by rw [hdeep]; rfl)
    · intro hheight limit heq
      cases hread : t.readRoot { maxDepth := a, denyUnknown } e with
      | ok p =>
        rw [hread] at heq
        cases heq
      | error err =>
        rw [hread] at heq
        refine hcut.error hheight limit ?_
        rw [hread, Except.error.inj heq]

/-- The disks in a value. -/
def disks : (t : Content) → t.Carrier → List Disk
  | .group .disk, d => [d]
  | .group .devices, d => d.disks
  | .group .domain, d => (d.devices.map (·.disks)).getD []
  | .group .domainSnapshot, s => ((s.domain.bind (·.devices)).map (·.disks)).getD []
  | _, _ => []

/-- The chain of a disk in a value is one of the chains of the value, with levels above. -/
theorem backingDepth_le_chain {v : t.Carrier} {disk : Disk} (h : disk ∈ t.disks v) :
    disk.backingDepth ≤ t.chain v ∧ 0 < t.aboveChain := by
  unfold disks at h
  split at h
  · obtain rfl := List.mem_singleton.mp h
    exact ⟨Nat.le_refl _, Nat.one_pos⟩
  · exact ⟨backingDepth_le_chainOfDevices h, Nat.two_pos⟩
  · rename_i d
    cases hd : d.devices with
    | none =>
      rw [hd] at h
      cases h
    | some devices =>
      rw [hd] at h
      refine ⟨?_, by decide⟩
      show _ ≤ chainOfDomain d
      rw [chainOfDomain_of_mem hd]
      exact backingDepth_le_chainOfDevices h
  · rename_i s
    cases hs : s.domain with
    | none =>
      rw [hs] at h
      cases h
    | some d =>
      rw [hs, Option.bind_some] at h
      cases hd : d.devices with
      | none =>
        rw [hd] at h
        cases h
      | some devices =>
        rw [hd] at h
        refine ⟨?_, by decide⟩
        show _ ≤ (s.domain.map chainOfDomain).getD 0
        rw [hs, Option.map_some, Option.getD_some, chainOfDomain_of_mem hd]
        exact backingDepth_le_chainOfDevices h
  · cases h

/-- The disks that were read have chains that fit below the limit. -/
theorem backingDepth_le_of_readRoot {o : LoadOptions} {e : Element} {v : t.Carrier} {n : Nat}
    (h : t.readRoot o e = .ok (v, n)) {disk : Disk} (hdisk : disk ∈ t.disks v) :
    disk.backingDepth ≤ max o.maxDepth 1 - 1 := by
  rw [readRoot_eq_scan] at h
  obtain ⟨m, hm, -, hheights⟩ := resaves_levels _ _ _ t e v n h
  obtain ⟨hchain, habove⟩ := backingDepth_le_chain hdisk
  have hle := chain_le_of_emitLevels (n := max o.maxDepth 1 - 1) hm fun c hc => by
    have := hheights c hc
    omega
  omega

/-- **The limit only cuts.** Under a lower limit a text, and an element, come to the same
result or to the error of that limit. The text does so exactly if its document is higher than
the limit; the element does not if it is no higher, so a text that was read is not refused
for its depth any more. Every disk that is loaded has a backing chain that fits below it. -/
theorem limit_only_cuts (t : Content) (denyUnknown : Bool) {a b : Nat} (hab : a ≤ b)
    (xml : String) (e : Element) :
    ((Xml.Document.parse a xml = Xml.Document.parse b xml ∨
        Xml.Document.parse a xml = .error (.depthExceeded (max a 1))) ∧
      ∀ root, Xml.Document.parse b xml = .ok root →
        (Xml.Document.parse a xml = .error (.depthExceeded (max a 1)) ↔
          max a 1 < root.height)) ∧
    ((t.load { maxDepth := a, denyUnknown } e = t.load { maxDepth := b, denyUnknown } e ∨
        t.load { maxDepth := a, denyUnknown } e = .error (.depthExceeded (max a 1))) ∧
      (e.height ≤ max a 1 →
        ∀ limit, t.load { maxDepth := a, denyUnknown } e ≠ .error (.depthExceeded limit)) ∧
      ∀ root, Xml.Document.parse a xml = .ok root →
        ∀ limit, t.ofXml { maxDepth := a, denyUnknown } xml ≠ .error (.depthExceeded limit)) ∧
    ∀ v, t.load { maxDepth := a, denyUnknown } e = .ok v →
      ∀ disk ∈ t.disks v, disk.backingDepth ≤ max a 1 - 1 := by
  have hload := load_cut t denyUnknown hab
  refine ⟨Xml.Document.parse_limit hab xml, ⟨(hload e).1, (hload e).2, ?_⟩, ?_⟩
  · intro root hroot limit
    rw [ofXml, hroot]
    exact (hload root).2 (Xml.Document.height_of_parse hroot) limit
  · intro v hv disk hdisk
    obtain ⟨-, n, hn⟩ := load_eq_ok_iff.mp hv
    exact backingDepth_le_of_readRoot hn hdisk

/-- A disk with two images below its own is loaded on three levels. On two it is refused, as
a text and as an element. -/
theorem limit_only_cuts_disk :
    let store : Element :=
      { name := "backingStore", attributes := [("type", "file")],
        children := [.element { name := "backingStore", attributes := [("type", "block")] }] }
    let e : Element :=
      { name := "disk", attributes := [("type", "file")],
        children := [.element store, .element { name := "target", attributes := [("dev", "vda")] }] }
    let disk : Disk :=
      { kind := .file, target := { dev := "vda" },
        backingStore := some (.layer { kind := .file,
                                       backingStore := some (.layer { kind := .block }) }) }
    2 ≤ 3 ∧ Content.load (.group .disk) { maxDepth := 3 } e = .ok disk ∧
      Content.load (.group .disk) { maxDepth := 2 } e = .error (.depthExceeded 2) ∧
      Xml.Document.parse 3 e.toXml = .ok e ∧
      Xml.Document.parse 2 e.toXml = .error (.depthExceeded 2) := by
  intro store e disk
  have hload : Content.load (.group .disk) { maxDepth := 3 } e = .ok disk := by decide +kernel
  have hparse : Xml.Document.parse 3 e.toXml = .ok e :=
    Xml.Document.parse_written none (by decide) (by decide)
  obtain ⟨⟨-, hdeep⟩, ⟨hsame, -⟩, hchain⟩ :=
    limit_only_cuts (.group .disk) false (a := 2) (b := 3) (by decide) e.toXml e
  refine ⟨by decide, hload, ?_, hparse, (hdeep e hparse).mpr (by decide)⟩
  rcases hsame with hsame | hcut
  · have hle := hchain disk (hsame.trans hload) disk List.mem_cons_self
    exact absurd hle (by decide)
  · exact hcut

end Content

end GuestXml.Schema
