import ClassLang.Proofs.Token.Coverage
import ClassLang.Proofs.Token.Seam
import Mathlib
/-!
Texts put together with newlines. Main statement: behind a text that is cut into tokens and a
newline, another text is cut into the tokens that it is cut into alone, or stopped at the same
fault, with the offsets in it greater by the bytes before it (`tokenize_append`).
-/

namespace ClassLang

section Offsets

variable {source file : String}

theorem ends_le_of_mem_tokenize {ts : List Token} (hsize : source.utf8ByteSize < UInt32.size)
    (h : tokenize source file = .ok ts) :
    ∀ t ∈ ts, t.start ≤ source.utf8ByteSize ∧ t.stop ≤ source.utf8ByteSize := by
  intro t ht
  have hle := (covers_of_tokenize hsize h).ends_le t ht
  rwa [Nat.zero_add, byteLength_toList] at hle

theorem offset_le_of_mem_tokenize {ts : List Token} (hsize : source.utf8ByteSize < UInt32.size)
    (h : tokenize source file = .ok ts) :
    ∀ t ∈ ts, t.position.offset.toNat ≤ source.utf8ByteSize :=
  fun t ht => (ends_le_of_mem_tokenize hsize h t ht).1

theorem offset_le_of_tokenize_error {d : Diagnostic} (hsize : source.utf8ByteSize < UInt32.size)
    (h : tokenize source file = .error d) : d.position.offset.toNat ≤ source.utf8ByteSize := by
  obtain ⟨rest, hrest⟩ := scan_texts source.toList
  have hlength := congrArg byteLength hrest
  rw [byteLength_append, byteLength_toList] at hlength
  rw [tokenize] at h
  split at h
  · cases h
  · cases h
    rw [Position.toNat_offset_ofBytes (by omega)]
    omega

end Offsets

/-- The second position is that many bytes further on in the same file. -/
structure Position.Behind (bytes : Nat) (p q : Position) : Prop where
  file_eq : q.file = p.file
  offset_eq : q.offset.toNat = p.offset.toNat + bytes

structure Token.Behind (bytes : Nat) (t u : Token) : Prop where
  word_eq : u.word = t.word
  start : t.span.start.Behind bytes u.span.start
  stop : t.span.stop.Behind bytes u.span.stop

theorem Position.behind_forward {bytes : Nat} {p : Position}
    (h : p.offset.toNat + bytes < UInt32.size) : p.Behind bytes (p.forward bytes) :=
  ⟨rfl, toNat_offset_forward h⟩

theorem Token.behind_relocate {bytes : Nat} {t : Token} (hstart : t.start + bytes < UInt32.size)
    (hstop : t.stop + bytes < UInt32.size) :
    t.Behind bytes (t.relocate (Position.forward bytes)) :=
  ⟨rfl, Position.behind_forward hstart, Position.behind_forward hstop⟩

/--
What comes of scanning a text alone, and of scanning it behind a text with the given tokens, with so
many bytes up to it: its tokens after the given ones, or the same cause, further on.
-/
inductive ScannedBehind (body : List Token) (bytes : Nat) :
    Except Diagnostic (List Token) → Except Diagnostic (List Token) → Prop
  | ok {us us' : List Token} :
      List.Forall₂ (Token.Behind bytes) us us' →
      ScannedBehind body bytes (.ok us) (.ok (body ++ us'))
  | error {cause : Cause} {p q : Position} :
      p.Behind bytes q → ScannedBehind body bytes (.error ⟨cause, p⟩) (.error ⟨cause, q⟩)

namespace ScannedBehind

variable {body : List Token} {bytes : Nat}

theorem exists_ok_iff {alone behind : Except Diagnostic (List Token)}
    (h : ScannedBehind body bytes alone behind) :
    (∃ us, behind = .ok us) ↔ ∃ us, alone = .ok us := by
  cases h with
  | ok => simp
  | error => simp

theorem of_tokenize {source file : String} (hsize : source.utf8ByteSize + bytes < UInt32.size) :
    ScannedBehind body bytes (tokenize source file)
      ((moveTokens bytes (tokenize source file)).map (body ++ ·)) := by
  have hsource : source.utf8ByteSize < UInt32.size := by omega
  cases h : tokenize source file with
  | ok us =>
      refine .ok (List.forall₂_map_right_iff.2 (List.forall₂_same.2 fun t ht => ?_))
      have hle := ends_le_of_mem_tokenize hsource h t ht
      exact Token.behind_relocate (by omega) (by omega)
  | error d =>
      have hle := offset_le_of_tokenize_error hsource h
      exact .error (Position.behind_forward (by omega))

end ScannedBehind

theorem tokenize_append {a b file : String} {ts : List Token}
    (hsize : (a ++ "\n" ++ b).utf8ByteSize < UInt32.size) (h : tokenize a file = .ok ts) :
    ((∃ us, tokenize (a ++ "\n" ++ b) file = .ok us) ↔ ∃ us, tokenize b file = .ok us) ∧
      ∃ body mark, ts = body ++ [mark] ∧ mark.kind = .endOfInput ∧
        (∀ t ∈ body, t.kind ≠ .endOfInput) ∧
        ScannedBehind body (a.utf8ByteSize + 1) (tokenize b file)
          (tokenize (a ++ "\n" ++ b) file) := by
  obtain ⟨body, mark, hts, hmark, hbody, happend⟩ := tokenize_append_newline b h
  have hbytes : (a ++ "\n" ++ b).utf8ByteSize = a.utf8ByteSize + 1 + b.utf8ByteSize := by
    rw [String.utf8ByteSize_append, String.utf8ByteSize_append]
    rfl
  have hbehind : ScannedBehind body (a.utf8ByteSize + 1) (tokenize b file)
      (tokenize (a ++ "\n" ++ b) file) := by
    rw [happend]
    exact .of_tokenize (by omega)
  exact ⟨hbehind.exists_ok_iff, body, mark, hts, hmark, hbody, hbehind⟩

theorem tokenize_append_of_line_comment :
    let a := "x\t//*"
    let b := "*/ y"
    let ts : List Token := [⟨.identifier, "x", .ofBytes "a.cl" 0 1⟩,
      ⟨.endOfInput, "EOF", .ofBytes "a.cl" 5 0⟩]
    (a ++ "\n" ++ b).utf8ByteSize < UInt32.size ∧ tokenize a "a.cl" = .ok ts ∧
      ((∃ us, tokenize (a ++ "\n" ++ b) "a.cl" = .ok us) ↔ ∃ us, tokenize b "a.cl" = .ok us) ∧
      ∃ body mark, ts = body ++ [mark] ∧ mark.kind = .endOfInput ∧
        (∀ t ∈ body, t.kind ≠ .endOfInput) ∧
        ScannedBehind body (a.utf8ByteSize + 1) (tokenize b "a.cl")
          (tokenize (a ++ "\n" ++ b) "a.cl") := by
  intro a b ts
  have hsize : (a ++ "\n" ++ b).utf8ByteSize < UInt32.size := by decide
  have h : tokenize a "a.cl" = .ok ts := by cbv
  exact ⟨hsize, h, tokenize_append hsize h⟩

end ClassLang
