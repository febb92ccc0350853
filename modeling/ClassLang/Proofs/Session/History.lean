import ClassLang.Proofs.Grammar.Blame
import ClassLang.Proofs.Session.CorrectPrefix
import Mathlib
/-!
Runs of steps that share a log. Main statement: whatever was done before, the log holds what was
registered and what parses failed with since it was last cleared, and what a step has answered is
not changed by later ones (`DiagnosticLog.history`).
-/

namespace ClassLang

/-- A step. The content of a file, or the reason why it has none, is given. -/
inductive Action where
  | parseSource (source file : String)
  | parseFile (content : Except String String) (file : String)
  | register (d : Diagnostic)
  | clear

inductive Reply where
  | done
  | parsed (p : Program)
  | failed (e : CompilationError)

namespace Reply

def ofResult {α : Type} (reply : α → Reply) :
    EStateM.Result CompilationError DiagnosticLog α → Reply × DiagnosticLog
  | .ok x log => (reply x, log)
  | .error e log => (.failed e, log)

end Reply

namespace Action

def perform (a : Action) : StateM DiagnosticLog Reply :=
  fun log =>
    match a with
    | .parseSource source file => Reply.ofResult .parsed (Session.parseSource source file log)
    | .parseFile content file =>
        Reply.ofResult .parsed (Session.parseFile (fun _ => content) file log)
    | .register d => Reply.ofResult (fun _ => .done) (Session.register d log)
    | .clear => Reply.ofResult (fun _ => .done) (Session.clear log)

def content? : Action → Option (Except String String × String)
  | .parseSource source file => some (.ok source, file)
  | .parseFile content file => some (content, file)
  | .register _ => none
  | .clear => none

/-- The diagnostic that a step adds to the log. -/
def diagnostic? : Action → Option Diagnostic
  | .register d => some d
  | .clear => none
  | .parseSource source file => wrong? (.ok source) file
  | .parseFile content file => wrong? content file
where
  wrong? (content : Except String String) (file : String) : Option Diagnostic :=
    match Program.ofContent content file with
    | .ok _ => none
    | .error d => some d

end Action

def performAll : List Action → StateM DiagnosticLog (List Reply)
  | [] => pure []
  | a :: actions => do
      let reply ← a.perform
      let replies ← performAll actions
      return reply :: replies

/-- The content of a file spells the program. -/
def Accepts (content : Except String String) (file : String) (p : Program) : Prop :=
  ∃ source body stop, content = .ok source ∧ tokenize source file = .ok (body ++ [stop]) ∧
    stop.kind = .endOfInput ∧ Grammar.Derives file body p.unplaced

/-- The diagnostic of the stage at which the content of a file turns out to be no program. -/
structure Rejects (content : Except String String) (file : String) (d : Diagnostic) : Prop where
  reading_iff : d.stage = .reading ↔ ∃ reason, content = .error reason
  scanning_iff : d.stage = .scanning ↔
    ∃ source d', content = .ok source ∧ tokenize source file = .error d'
  eq_of_tokenize : ∀ source d', content = .ok source → tokenize source file = .error d' → d = d'
  parsing_iff : d.stage = .parsing ↔
    ∃ source body stop, content = .ok source ∧ tokenize source file = .ok (body ++ [stop]) ∧
      stop.kind = .endOfInput ∧ ∀ p, ¬ Grammar.Derives file body p

/-- The reply to a step, and the log after it. -/
inductive Answers (log : DiagnosticLog) : Action → Reply → DiagnosticLog → Prop
  | parsed {a : Action} {content : Except String String} {file : String} {p : Program} :
      a.content? = some (content, file) → a.diagnostic? = none → Accepts content file p →
      Answers log a (.parsed p) log
  | failed {a : Action} {content : Except String String} {file : String} {d : Diagnostic} :
      a.content? = some (content, file) → a.diagnostic? = some d → Rejects content file d →
      Answers log a (.failed ⟨log.entries ++ [d]⟩) ⟨log.entries ++ [d]⟩
  | registered {d : Diagnostic} : Answers log (.register d) .done ⟨log.entries ++ [d]⟩
  | cleared : Answers log .clear .done ⟨[]⟩

section Contents

variable {source file : String} {content : Except String String} {p : Program} {d : Diagnostic}

theorem stage_of_tokenize (h : tokenize source file = .error d) : d.stage = .scanning := by
  rw [tokenize] at h
  cases hfault : (scan source.toList).fault with
  | none => simp [hfault] at h
  | some fault =>
      simp only [hfault] at h
      cases h
      cases fault <;> rfl

theorem stage_of_ofStream {s : TokenStream} (h : Program.ofStream s file = .error d) :
    d.stage = .parsing := by
  obtain ⟨s', h⟩ := Session.ofStream_eq_error.1 h
  exact ((Grammar.program_blames (Nat.le_refl _)).blames (Nat.le_refl _) h).stage_eq

open Grammar in
theorem exists_derives_iff {body : List Token} {stop : Token} (hstop : stop.kind = .endOfInput) :
    (∃ p, DerivesDecl Token.position file .program (body ++ [stop]) [stop] p) ↔
      ∃ p, Derives file body p := by
  constructor
  · rintro ⟨p, h⟩
    obtain ⟨q, hq, -⟩ := h.exists_placed nowhere
    exact ⟨q, (derives_iff hstop).2 hq⟩
  · rintro ⟨q, hq⟩
    obtain ⟨p, hp, -⟩ := ((derives_iff hstop).1 hq).exists_placed Token.position
    exact ⟨p, hp⟩

theorem accepts_of_ofContent (h : Program.ofContent content file = .ok p) :
    Accepts content file p := by
  cases content with
  | error reason => cases h
  | ok source =>
      have hparse : Session.parseSource source file .empty = .ok p .empty :=
        Session.conclude_eq_ok.2 ⟨h, rfl⟩
      obtain ⟨body, stop, hts, hstop, hderives⟩ := Session.exists_derives_of_parseSource hparse
      obtain ⟨q, hq, hunplaced⟩ := hderives.exists_placed Grammar.nowhere
      rw [hq.unplaced_eq] at hunplaced
      subst hunplaced
      exact ⟨source, body, stop, rfl, hts, hstop, (Grammar.derives_iff hstop).2 hq⟩

theorem rejects_of_reason {reason : String} :
    Rejects (.error reason) file ⟨.unreadable file reason, Position.ofBytes file 0⟩ where
  reading_iff := ⟨fun _ => ⟨reason, rfl⟩, fun _ => rfl⟩
  scanning_iff := ⟨nofun, nofun⟩
  eq_of_tokenize := nofun
  parsing_iff := ⟨nofun, nofun⟩

theorem rejects_of_tokenize (h : tokenize source file = .error d) :
    Rejects (.ok source) file d where
  reading_iff := by simp [stage_of_tokenize h]
  scanning_iff := ⟨fun _ => ⟨source, d, rfl, h⟩, fun _ => stage_of_tokenize h⟩
  eq_of_tokenize := by
    rintro _ d' ⟨⟩ h'
    cases h.symm.trans h'
    rfl
  parsing_iff := by
    rw [stage_of_tokenize h]
    refine ⟨nofun, ?_⟩
    rintro ⟨_, body, stop, ⟨⟩, h', -⟩
    cases h.symm.trans h'

theorem rejects_of_ofStream {ts : List Token} (hts : tokenize source file = .ok ts)
    (h : Program.ofStream (TokenStream.ofTokens ts file) file = .error d) :
    Rejects (.ok source) file d where
  reading_iff := by simp [stage_of_ofStream h]
  scanning_iff := by
    rw [stage_of_ofStream h]
    refine ⟨nofun, ?_⟩
    rintro ⟨_, d', ⟨⟩, h'⟩
    cases hts.symm.trans h'
  eq_of_tokenize := by
    rintro _ d' ⟨⟩ h'
    cases hts.symm.trans h'
  parsing_iff := by
    refine ⟨fun _ => ?_, fun _ => stage_of_ofStream h⟩
    obtain ⟨body, stop, rfl, hstop, hbody⟩ := exists_append_of_tokenize hts
    refine ⟨source, body, stop, rfl, hts, hstop, fun q hq => ?_⟩
    obtain ⟨p, hp⟩ := (exists_derives_iff hstop).2 ⟨q, hq⟩
    rw [(Grammar.ofStream_eq_ok_iff hbody hstop).2 hp] at h
    cases h

theorem rejects_of_ofContent (h : Program.ofContent content file = .error d) :
    Rejects content file d := by
  cases content with
  | error reason =>
      cases h
      exact rejects_of_reason
  | ok source =>
      cases hts : tokenize source file with
      | error d' =>
          cases (Program.ofSource_of_tokenize_error hts).symm.trans h
          exact rejects_of_tokenize hts
      | ok ts => exact rejects_of_ofStream hts ((Program.ofSource_of_tokenize hts).symm.trans h)

end Contents

namespace Action

variable {content : Except String String} {file : String} (log : DiagnosticLog)

theorem answers_of_content {a : Action} (hcontent : a.content? = some (content, file))
    (hwrong : a.diagnostic? = diagnostic?.wrong? content file) :
    let result := Reply.ofResult .parsed (Session.conclude (Program.ofContent content file) log)
    Answers log a result.1 result.2 := by
  rw [diagnostic?.wrong?] at hwrong
  cases h : Program.ofContent content file with
  | ok p =>
      rw [h] at hwrong
      exact .parsed hcontent hwrong (accepts_of_ofContent h)
  | error d =>
      rw [h] at hwrong
      exact .failed hcontent hwrong (rejects_of_ofContent h)

theorem answers_perform (a : Action) :
    Answers log a (a.perform.run log).1 (a.perform.run log).2 := by
  cases a with
  | parseSource source file => exact @answers_of_content (.ok source) file log _ rfl rfl
  | parseFile content file => exact answers_of_content log rfl rfl
  | register d => exact .registered
  | clear => exact .cleared

end Action

theorem Answers.entries_eq {log log' : DiagnosticLog} {a : Action} {reply : Reply}
    (h : Answers log a reply log') (hclear : a ≠ .clear) :
    log'.entries = log.entries ++ a.diagnostic?.toList := by
  cases h with
  | parsed _ hnone _ => rw [hnone, Option.toList_none, List.append_nil]
  | failed _ hsome _ => rw [hsome, Option.toList_some]
  | registered => rfl
  | cleared => exact absurd rfl hclear

namespace DiagnosticLog

variable (log : DiagnosticLog)

def after (actions : List Action) : DiagnosticLog :=
  ((performAll actions).run log).2

def repliesTo (actions : List Action) : List Reply :=
  ((performAll actions).run log).1

theorem after_cons (a : Action) (actions : List Action) :
    log.after (a :: actions) = (log.after [a]).after actions :=
  rfl

theorem repliesTo_cons (a : Action) (actions : List Action) :
    log.repliesTo (a :: actions) = log.repliesTo [a] ++ (log.after [a]).repliesTo actions :=
  rfl

theorem after_append (before actions : List Action) :
    log.after (before ++ actions) = (log.after before).after actions := by
  induction before generalizing log with
  | nil => rfl
  | cons a before ih => rw [List.cons_append, after_cons, ih, ← after_cons]

theorem repliesTo_append (before actions : List Action) :
    log.repliesTo (before ++ actions) =
      log.repliesTo before ++ (log.after before).repliesTo actions := by
  induction before generalizing log with
  | nil => rfl
  | cons a before ih =>
      rw [List.cons_append, repliesTo_cons, ih, repliesTo_cons log a before,
        after_cons log a before, List.append_assoc]

theorem length_repliesTo (actions : List Action) :
    (log.repliesTo actions).length = actions.length := by
  induction actions generalizing log with
  | nil => rfl
  | cons a actions ih =>
      rw [repliesTo_cons, List.length_append, ih, List.length_cons, Nat.add_comm]
      rfl

theorem exists_answers (a : Action) :
    ∃ reply, log.repliesTo [a] = [reply] ∧ Answers log a reply (log.after [a]) :=
  ⟨_, rfl, a.answers_perform log⟩

theorem entries_after {actions : List Action} (hclear : .clear ∉ actions) :
    (log.after actions).entries = log.entries ++ actions.filterMap Action.diagnostic? := by
  induction actions generalizing log with
  | nil => exact (List.append_nil _).symm
  | cons a actions ih =>
      rw [List.mem_cons, not_or] at hclear
      obtain ⟨reply, -, hanswers⟩ := log.exists_answers a
      rw [after_cons, ih _ hclear.2, hanswers.entries_eq (Ne.symm hclear.1), List.append_assoc]
      cases h : a.diagnostic? <;> simp [h]

theorem entries_after_clear (earlier : List Action) {recent : List Action}
    (hclear : .clear ∉ recent) :
    (log.after (earlier ++ .clear :: recent)).entries =
      recent.filterMap Action.diagnostic? := by
  rw [after_append, after_cons, entries_after _ hclear]
  rfl

theorem history (before : List Action) (a : Action) (later : List Action) :
    ∃ reply, Answers (log.after before) a reply (log.after (before ++ [a])) ∧
      (log.repliesTo (before ++ a :: later))[before.length]? = some reply ∧
      (.clear ∉ before ++ [a] → (log.after (before ++ [a])).entries =
        log.entries ++ (before ++ [a]).filterMap Action.diagnostic?) ∧
      ∀ earlier recent, before ++ [a] = earlier ++ .clear :: recent → .clear ∉ recent →
        (log.after (before ++ [a])).entries = recent.filterMap Action.diagnostic? := by
  obtain ⟨reply, hreply, hanswers⟩ := (log.after before).exists_answers a
  rw [← after_append] at hanswers
  refine ⟨reply, hanswers, ?_, log.entries_after, ?_⟩
  · rw [repliesTo_append, ← log.length_repliesTo before, repliesTo_cons, hreply]
    simp
  · intro earlier recent hsplit hclear
    rw [hsplit, log.entries_after_clear earlier hclear]

end DiagnosticLog

end ClassLang
