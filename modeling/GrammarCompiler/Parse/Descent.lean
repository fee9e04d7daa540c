import GrammarCompiler.Tree
import GrammarCompiler.Grammar.Printer
import GrammarCompiler.Parse.Outcome

/-!
Recursive descent with backtracking. Alternatives are tried in order and the
first one that matches is final; a repetition takes as many rounds as match. A
sequence that fails puts the cursor back to where it began, and only the
sequence does: a terminal that does not match has consumed its lexeme.

The descent is cut at the non-terminals. Symbols and sequences recurse on the
grammar's own structure and get the treatment of non-terminals, `resolve`, as
an argument; `Grammar.descend` supplies it, one level at a time. A run that
enters the same non-terminal twice at the same place on one path never ends,
and a path sees no more places than there are significant lexemes ahead, the
place where it starts and the end of the stream. So `Grammar.depthBound`
levels are enough for every run that ends at all, and a run that needs more is
reported as diverged. So is a search for a significant lexeme that passes over
the sentinel, which stands behind the last lexeme as often as it is asked for.
-/

namespace GrammarCompiler

namespace Descent

/-- How a non-terminal is matched. -/
abbrev Resolver := String → Stream → Outcome (List Tree)

/-- Matches one significant lexeme against a category. -/
def matchTerminal (rule kind : String) (s : Stream) : Outcome (List Tree) :=
  let (lexeme, s') := s.nextSignificant
  -- Only the sentinel is ever found and insignificant, and then it is found forever.
  if s.isInsignificant lexeme then .diverged
  else if lexeme.kind = kind then .success [.ofLexeme lexeme] s'
  else .failure [.mismatch rule kind lexeme] s'

/-- The fragment that a matched symbol contributes: its node, except for a repetition that
matched nothing. -/
def fragment (kind text : String) (children : List Tree) : List Tree :=
  if kind = repetitionKind ∧ children = [] then [] else [.node kind text children]

/-- Runs `round` until it fails or stands still, at most `bound` times. A round that stands
still is discarded. -/
def rounds (round : Stream → Outcome (List Tree)) : Nat → Stream → Outcome (List Tree)
  | 0, _ => .diverged
  | bound + 1, s =>
    match round s with
    | .diverged => .diverged
    | .failure _ s' => .success [] s'
    | .success matched s' =>
      if s'.cursor = s.cursor then .success [] s'
      else
        match rounds round bound s' with
        | .success more s'' => .success (matched ++ more) s''
        | other => other

/-- Runs `round` as often as it makes progress. Every round but the last passes a lexeme. -/
def repeatRounds (round : Stream → Outcome (List Tree)) (s : Stream) : Outcome (List Tree) :=
  rounds round (s.ahead.length + 1) s

mutual
/-- Matches one symbol of the rule that is called `rule` in diagnostics. -/
def matchSymbol (resolve : Resolver) (rule : String) : Symbol → Stream → Outcome (List Tree)
  | .terminal kind, s => matchTerminal rule kind s
  | .nonTerminal name, s => resolve name s
  | .repetition body, s =>
    match
      repeatRounds
        (fun s' =>
          (matchSymbols resolve (Symbol.renderRepetition body) body s').rewound s'.cursor) s with
    | .success children s' =>
      .success (fragment repetitionKind (Symbol.renderRepetition body) children) s'
    | other => other

/-- Matches symbols one behind the other, up to the first that fails. -/
def matchSymbols (resolve : Resolver) (rule : String) :
    List Symbol → Stream → Outcome (List Tree)
  | [], s => .success [] s
  | x :: xs, s =>
    match matchSymbol resolve rule x s with
    | .success matched s' =>
      match matchSymbols resolve rule xs s' with
      | .success more s'' => .success (matched ++ more) s''
      | other => other
    | other => other
end

/-- Matches a sequence as a whole: if it fails, the cursor is where it was. -/
def matchSequence (resolve : Resolver) (rule : String) (symbols : List Symbol) (s : Stream) :
    Outcome (List Tree) :=
  (matchSymbols resolve rule symbols s).rewound s.cursor

/-- Matches the body of a repetition as often as possible. -/
def matchRepetition (resolve : Resolver) (body : List Symbol) (s : Stream) :
    Outcome (List Tree) :=
  repeatRounds (matchSequence resolve (Symbol.renderRepetition body) body) s

/-- Matches one alternative of the non-terminal `name`. -/
def matchRule (resolve : Resolver) (name : String) : Rule → Stream → Outcome (List Tree)
  | .sequence symbols, s => matchSequence resolve name symbols s
  | .repetition body, s => matchRepetition resolve body s

/-- The diagnostics for a non-terminal none of whose alternatives matched. The failure of an
only alternative is the most specific thing to say; of several, most explored the wrong
alternative, so that only the place is reported. -/
def exhausted (s : Stream) (name : String) (alternatives : Nat) (last : List Diagnostic) :
    List Diagnostic :=
  if alternatives = 1 then last
  else if s.peekSignificant.isEnd then [.endOfFile name]
  else [.noAlternative name s.peekSignificant]

/-- Tries the rules in order; `last` holds the diagnostics of the rule tried before, and
`alternatives` the number of all rules. -/
def matchFirst (resolve : Resolver) (name : String) (alternatives : Nat) :
    List Rule → List Diagnostic → Stream → Outcome (List Tree)
  | [], last, s => .failure (exhausted s name alternatives last) s
  | rule :: rules, _, s =>
    match matchRule resolve name rule s with
    | .success children s' => .success (fragment name name children) s'
    | .failure ds s' => matchFirst resolve name alternatives rules ds s'
    | .diverged => .diverged

/-- Matches a non-terminal by its alternatives. -/
def matchAlternatives (resolve : Resolver) (name : String) (rules : List Rule) (s : Stream) :
    Outcome (List Tree) :=
  matchFirst resolve name rules.length rules [] s

theorem matchTerminal_eq (rule kind : String) (s : Stream) :
    matchTerminal rule kind s =
      if s.isInsignificant s.nextSignificant.1 then .diverged
      else if s.nextSignificant.1.kind = kind then
        .success [.ofLexeme s.nextSignificant.1] s.nextSignificant.2
      else .failure [.mismatch rule kind s.nextSignificant.1] s.nextSignificant.2 := rfl

theorem matchSymbol_repetition (resolve : Resolver) (rule : String) (body : List Symbol)
    (s : Stream) :
    matchSymbol resolve rule (.repetition body) s =
      match matchRepetition resolve body s with
      | .success children s' =>
        .success (fragment repetitionKind (Symbol.renderRepetition body) children) s'
      | other => other := by
  rw [matchSymbol]
  rfl

end Descent

namespace Grammar

/-- Matches a non-terminal whose expansion enters at most `levels` non-terminals on a path. -/
def descend (g : Grammar) : Nat → Descent.Resolver
  | 0, name, s =>
    match g.rules? name with
    | none => .failure [.undefinedNonTerminal name] s
    | some _ => .diverged
  | levels + 1, name, s =>
    match g.rules? name with
    | none => .failure [.undefinedNonTerminal name] s
    | some rules => Descent.matchAlternatives (descend g levels) name rules s

/-- The number of non-terminals that a path of a run with an end can enter. -/
def depthBound (g : Grammar) (s : Stream) : Nat :=
  g.entries.length * (s.significant.length + 2)

/-- Accepts the children of the start symbol if nothing but insignificant lexemes is left. -/
def complete (g : Grammar) (children : List Tree) (s : Stream) : Outcome Tree :=
  if s.peekSignificant.isEnd then .success (.ofSymbol g.start children) s
  else .failure [.trailing s.peekSignificant g.start] s

/-- Parses the stream from its cursor to its end, with a given bound on the descent. -/
def parseAt (g : Grammar) (levels : Nat) (s : Stream) : Outcome Tree :=
  match g.startRule with
  | .error e => .failure [.badStart e] s
  | .ok rule =>
    match Descent.matchRule (g.descend levels) g.start rule s with
    | .success children s' => g.complete children s'
    | .failure [] s' => .failure [.unexplained g.start] s'
    | .failure ds s' => .failure ds s'
    | .diverged => .diverged

/-- Parses the stream from its cursor to its end. -/
def parse (g : Grammar) (s : Stream) : Outcome Tree := g.parseAt (g.depthBound s) s

end Grammar

end GrammarCompiler
