import GuestXml.Xml.Event
import GuestXml.Xml.Reference

/-!
# Attributes of a tag

What stands in a tag behind its name is a sequence of `name = "value"`, with either quote
and with blanks wherever a part ends. A name runs up to the first blank or `=`, though it
may begin with one; no blank is needed after a value. A name may not come twice, and
references in values are replaced.
-/

namespace GuestXml.Xml.Attribute

/-- The characters of a name behind its first. -/
def inName (c : Char) : Bool :=
  c != '=' && !isSpace c

/-- The first attribute, its value as written, and what follows it; nothing if only blanks
are left. -/
def next? (cs : List Char) :
    Except Malformation (Option ((List Char × List Char) × List Char)) :=
  match cs.dropWhile isSpace with
  | [] => .ok none
  | k :: r =>
    match (r.dropWhile inName).dropWhile isSpace with
    | '=' :: r' =>
      match r'.dropWhile isSpace with
      | q :: r'' =>
        if q = '"' ∨ q = '\'' then
          match Event.splitAtMark [q] r'' with
          | some (value, rest) => .ok (some ((k :: r.takeWhile inName, value), rest))
          | none => .error .tag
        else .error .tag
      | [] => .error .tag
    | _ => .error .tag

theorem length_lt_of_next? {cs rest : List Char} {a : List Char × List Char}
    (h : next? cs = .ok (some (a, rest))) : rest.length < cs.length := by
  unfold next? at h
  split at h
  · cases h
  · rename_i k r hk
    have h₁ := (List.dropWhile_sublist (l := cs) isSpace).length_le
    have h₂ := (List.dropWhile_sublist (l := r) inName).length_le
    have h₃ := (List.dropWhile_sublist (l := r.dropWhile inName) isSpace).length_le
    rw [hk, List.length_cons] at h₁
    split at h
    · rename_i r' hr'
      have h₄ := (List.dropWhile_sublist (l := r') isSpace).length_le
      rw [hr', List.length_cons] at h₃
      split at h
      · rename_i q r'' hq
        rw [hq, List.length_cons] at h₄
        split at h
        · split at h
          · rename_i hs
            cases h
            have := Event.length_lt_of_splitAtMark (by simp) hs
            omega
          · cases h
        · cases h
      · cases h
    · cases h

/-- The attributes as written, in order. -/
def written (cs : List Char) : Except Malformation (List (List Char × List Char)) :=
  match _h : next? cs with
  | .error e => .error e
  | .ok none => .ok []
  | .ok (some (a, rest)) => (a :: ·) <$> written rest
termination_by cs.length
decreasing_by exact length_lt_of_next? _h

/-- The attributes of a tag, in order, with their values. -/
def parse (cs : List Char) : Except Malformation (List (String × String)) := do
  let attributes ← written cs
  if (attributes.map (·.1)).Nodup then
    attributes.mapM fun (name, value) => do
      return (String.ofList name, String.ofList (← unescape value))
  else throw .tag

end GuestXml.Xml.Attribute
