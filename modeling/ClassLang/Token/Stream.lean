import ClassLang.Token.Lexeme
/-!
Token streams: a list of tokens that ends in an endless supply of end marks. Main statements: the
current token of an exhausted stream is an end mark, and advancing it changes nothing.
-/

namespace ClassLang

/-- The tokens still to come, and the mark that stands for the end of the input. -/
structure TokenStream where
  pending : List Token
  endMark : EndMark
  deriving DecidableEq, Repr

namespace TokenStream

/--
The stream of a list of tokens. Its end mark is the last token if that is one; otherwise it stands
right after the last token, or at the start of the file if there is none.
-/
def ofTokens (tokens : List Token) (file : String) : TokenStream :=
  ⟨tokens, markAfter tokens.getLast?⟩
where
  markAfter : Option Token → EndMark
    | none => EndMark.atPosition (Position.ofBytes file 0)
    | some last =>
        if last.kind = .endOfInput then ⟨last.value, last.span⟩
        else EndMark.atPosition last.span.stop

def ofSource (source file : String) : Except Diagnostic TokenStream :=
  (tokenize source file).map fun tokens => ofTokens tokens file

def current (s : TokenStream) : Token :=
  match s.pending with
  | [] => s.endMark.token
  | t :: _ => t

def advance (s : TokenStream) : TokenStream :=
  { s with pending := s.pending.tail }

def take : Nat → TokenStream → List Token
  | 0, _ => []
  | n + 1, s => s.current :: take n s.advance

@[simp] theorem current_nil (mark : EndMark) : (TokenStream.mk [] mark).current = mark.token := rfl

@[simp] theorem current_cons (t : Token) (ts : List Token) (mark : EndMark) :
    (TokenStream.mk (t :: ts) mark).current = t := rfl

@[simp] theorem advance_nil (mark : EndMark) :
    (TokenStream.mk [] mark).advance = TokenStream.mk [] mark := rfl

@[simp] theorem advance_cons (t : Token) (ts : List Token) (mark : EndMark) :
    (TokenStream.mk (t :: ts) mark).advance = TokenStream.mk ts mark := rfl

@[simp] theorem pending_ofTokens (tokens : List Token) (file : String) :
    (ofTokens tokens file).pending = tokens := rfl

end TokenStream

end ClassLang
