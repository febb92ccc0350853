/-!
Texts as lists of characters, measured in bytes of UTF-8. Main statements: the measure is additive
(`byteLength_append`), it is the size of the string (`byteLength_toList`), dropping the bytes of a
leading part leaves what follows it (`dropBytes?_append`), and a slice is what stands between two
offsets (`sliceBytes?_eq_some_iff`).
-/

namespace ClassLang

def byteLength : List Char → Nat
  | [] => 0
  | c :: cs => c.utf8Size + byteLength cs

@[simp] theorem byteLength_nil : byteLength [] = 0 := rfl

@[simp] theorem byteLength_cons (c : Char) (cs : List Char) :
    byteLength (c :: cs) = c.utf8Size + byteLength cs := rfl

@[simp] theorem byteLength_append (cs ds : List Char) :
    byteLength (cs ++ ds) = byteLength cs + byteLength ds := by
  induction cs with
  | nil => simp
  | cons c cs ih => simp [ih, Nat.add_assoc]

theorem byteLength_ofList (cs : List Char) :
    (String.ofList cs).utf8ByteSize = byteLength cs := by
  induction cs with
  | nil => simp
  | cons c cs ih =>
      have h : String.ofList (c :: cs) = String.singleton c ++ String.ofList cs := by
        rw [← String.ofList_toList (s := String.singleton c ++ String.ofList cs)]
        simp
      rw [h, String.utf8ByteSize_append, ih, String.utf8ByteSize_singleton, byteLength_cons]

theorem byteLength_toList (s : String) : byteLength s.toList = s.utf8ByteSize := by
  rw [← byteLength_ofList, String.ofList_toList]

theorem byteLength_pos_of_ne_nil {cs : List Char} (h : cs ≠ []) : 0 < byteLength cs := by
  cases cs with
  | nil => exact absurd rfl h
  | cons c cs => have := c.utf8Size_pos; simp only [byteLength_cons]; omega

theorem eq_nil_of_byteLength_eq_zero {cs : List Char} (h : byteLength cs = 0) : cs = [] :=
  Decidable.byContradiction fun hne => Nat.ne_of_gt (byteLength_pos_of_ne_nil hne) h

/-- What follows the first `n` bytes, if these end between two characters of the text. -/
def dropBytes? : Nat → List Char → Option (List Char)
  | 0, cs => some cs
  | _ + 1, [] => none
  | n + 1, c :: cs => if c.utf8Size ≤ n + 1 then dropBytes? (n + 1 - c.utf8Size) cs else none

theorem dropBytes?_append (cs ds : List Char) :
    dropBytes? (byteLength cs) (cs ++ ds) = some ds := by
  induction cs with
  | nil => simp [dropBytes?]
  | cons c cs ih =>
      have hc := c.utf8Size_pos
      obtain ⟨k, hk⟩ : ∃ k, byteLength (c :: cs) = k + 1 :=
        ⟨c.utf8Size + byteLength cs - 1, by simp only [byteLength_cons]; omega⟩
      have hle : c.utf8Size ≤ k + 1 := by rw [← hk]; simp
      have hsub : k + 1 - c.utf8Size = byteLength cs := by rw [← hk]; simp
      rw [hk, List.cons_append, dropBytes?, if_pos hle, hsub, ih]

theorem exists_append_of_dropBytes? {n : Nat} {cs ds : List Char} (h : dropBytes? n cs = some ds) :
    ∃ before, cs = before ++ ds ∧ byteLength before = n := by
  induction cs generalizing n with
  | nil =>
      cases n with
      | zero => exact ⟨[], by simpa [dropBytes?] using h, rfl⟩
      | succ n => simp [dropBytes?] at h
  | cons c cs ih =>
      cases n with
      | zero => exact ⟨[], by simpa [dropBytes?] using h, rfl⟩
      | succ n =>
          rw [dropBytes?] at h
          split at h
          · obtain ⟨before, hcs, hlen⟩ := ih h
            exact ⟨c :: before, by simp [hcs], by simp only [byteLength_cons]; omega⟩
          · simp at h

/-- The text between two offsets, if they are in order and each is between two characters. -/
def sliceBytes? (start stop : Nat) (cs : List Char) : Option (List Char) :=
  if start ≤ stop then do
    let part ← dropBytes? start cs
    let after ← dropBytes? stop cs
    return part.take (part.length - after.length)
  else none

theorem sliceBytes?_eq_some_iff {start stop : Nat} {cs part : List Char} :
    sliceBytes? start stop cs = some part ↔ ∃ before after, cs = before ++ part ++ after ∧
      byteLength before = start ∧ byteLength (before ++ part) = stop := by
  constructor
  · intro h
    rw [sliceBytes?] at h
    split at h
    · next hle =>
        obtain ⟨rest, hrest, h⟩ := Option.bind_eq_some_iff.1 h
        obtain ⟨after, hafter, h⟩ := Option.bind_eq_some_iff.1 h
        obtain ⟨before, hcs, hbefore⟩ := exists_append_of_dropBytes? hrest
        obtain ⟨head, hcs', hhead⟩ := exists_append_of_dropBytes? hafter
        have hsplit : ∃ mid, head = before ++ mid ∧ rest = mid ++ after := by
          rcases List.append_eq_append_iff.1 (hcs.symm.trans hcs') with
            ⟨mid, hmid, hrest⟩ | ⟨mid, hmid, hafter⟩
          · exact ⟨mid, hmid, hrest⟩
          · -- the second offset is not before the first, so nothing lies between them
            have hlength := congrArg byteLength hmid
            rw [byteLength_append] at hlength
            have hnil : mid = [] := eq_nil_of_byteLength_eq_zero (by omega)
            subst hnil
            rw [List.append_nil] at hmid
            exact ⟨[], by rw [hmid, List.append_nil], hafter.symm⟩
        obtain ⟨mid, rfl, rfl⟩ := hsplit
        have hpart : mid = part := by simpa using h
        subst hpart
        exact ⟨before, after, hcs', hbefore, hhead⟩
    · cases h
  · rintro ⟨before, after, rfl, rfl, rfl⟩
    have hle : byteLength before ≤ byteLength (before ++ part) := by simp
    have hpart :
        dropBytes? (byteLength before) (before ++ part ++ after) = some (part ++ after) := by
      rw [List.append_assoc]
      exact dropBytes?_append before (part ++ after)
    rw [sliceBytes?, if_pos hle, hpart, dropBytes?_append]
    simp

end ClassLang
