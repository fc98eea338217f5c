import Lobu.Foundation.Text

namespace Lobu.Worker

open Lobu.Foundation

/-! # A fragment of the shell language

Simple commands joined by control operators, groups, substitutions, quotes and
backslash escapes, with the simple commands that a shell runs for them.  Reserved
words, redirections, parameters, arithmetic and comments are not part of it.
-/

inductive Substitution where
  | dollar
  | backtick
  | input
  | output
deriving DecidableEq

inductive Operator where
  | semicolon
  | background
  | both
  | either
  | pipe
  | newline
deriving DecidableEq

/-- A piece of a command and what follows it in the same brackets or quotes.  The
body of `double` is the quoted text with its substitutions. -/
inductive Shell where
  | done
  | plain (c : Char) (rest : Shell)
  | escaped (c : Char) (rest : Shell)
  | single (text : List Char) (rest : Shell)
  | double (body rest : Shell)
  | substitute (kind : Substitution) (body rest : Shell)
  | group (body rest : Shell)
  | operator (sign : Operator) (rest : Shell)

def Substitution.opening : Substitution → List Char
  | .dollar => ['$', '(']
  | .backtick => ['`']
  | .input => ['<', '(']
  | .output => ['>', '(']

def Substitution.closing : Substitution → Char
  | .backtick => '`'
  | .dollar | .input | .output => ')'

def Operator.text : Operator → List Char
  | .semicolon => [';']
  | .background => ['&']
  | .both => ['&', '&']
  | .either => ['|', '|']
  | .pipe => ['|']
  | .newline => ['\n']

namespace Shell

/-- The command string. -/
def render : Shell → List Char
  | done => []
  | plain c rest => c :: rest.render
  | escaped c rest => '\\' :: c :: rest.render
  | single text rest => '\'' :: (text ++ '\'' :: rest.render)
  | double body rest => '"' :: (body.render ++ '"' :: rest.render)
  | substitute kind body rest => kind.opening ++ (body.render ++ kind.closing :: rest.render)
  | group body rest => '(' :: (body.render ++ ')' :: rest.render)
  | operator sign rest => sign.text ++ rest.render

/-- Where a piece stands: before the first word of a command, inside a word, after a
blank that follows one, after a group, or in double quotes. -/
inductive Place where
  | start
  | word
  | gap
  | closed
  | quoted
deriving DecidableEq

/-- The characters that separate the words of a command. -/
def isBlank (c : Char) : Bool :=
  c == ' ' || c == '\t'

/-- The characters with a meaning of their own outside quotes. -/
def isSpecial (c : Char) : Bool :=
  ['\'', '"', '\\', '`', ';', '&', '|', '\n', '(', ')', '<', '>'].contains c

def Place.next (place : Place) (c : Char) : Place :=
  match place with
  | .quoted => .quoted
  | .closed => .closed
  | .start => if isBlank c then .start else .word
  | .word | .gap => if isBlank c then .gap else .word

def Place.admits (place : Place) (c : Char) : Bool :=
  match place with
  | .quoted => !(['"', '`', '\\'].contains c)
  | .closed => isBlank c
  | .word => !isSpecial c
  | .start | .gap => !isSpecial c && c != '#'

/-- Where a quotation, an escape or a substitution leaves off. -/
def Place.inWord (place : Place) : Place :=
  if place = .quoted then .quoted else .word

/-- What backquotes leave as it is. -/
def backquotable (text : List Char) : Bool :=
  !text.contains '`' &&
    (text.zip text.tail).all fun pair => !(pair.1 == '\\' && ['$', '\\'].contains pair.2)

def WellFormed : Place → Shell → Bool
  | _, done => true
  | place, plain c rest =>
    place.admits c && !(c == '$' && rest.render.head? == some '(') &&
      WellFormed (place.next c) rest
  | place, escaped _ rest => place != .closed && WellFormed place.inWord rest
  | place, single text rest =>
    place != .closed && place != .quoted && !text.contains '\'' && WellFormed .word rest
  | place, double body rest =>
    place != .closed && place != .quoted && WellFormed .quoted body && WellFormed .word rest
  | place, substitute kind body rest =>
    place != .closed && (place != .quoted || kind == .dollar || kind == .backtick) &&
      (kind != .dollar || body.render.head? != some '(') &&
      (kind != .backtick || backquotable body.render) &&
        WellFormed .start body && WellFormed place.inWord rest
  | place, group body rest =>
    place == .start && body.render.head? != some '(' && WellFormed .start body &&
      WellFormed .closed rest
  | place, operator sign rest =>
    place != .quoted &&
      !(sign == .background && rest.render.head? == some '&') &&
      !(sign == .pipe && rest.render.head? == some '|') && WellFormed .start rest

/-- What a simple command is made of once its quotes and escapes are removed: its
characters, a mark where a quotation began, and holes for what substitutions yield. -/
inductive Glyph where
  | char (c : Char) (quoted : Bool)
  | mark
  | hole
deriving DecidableEq

def Glyph.char? : Glyph → Option Char
  | .char c _ => some c
  | .mark | .hole => none

/-- Blanks between words. -/
def Glyph.isBlank : Glyph → Bool
  | .char c false => Shell.isBlank c
  | _ => false

def Glyph.notHole (glyph : Glyph) : Bool :=
  glyph != .hole

def chars (text : List Glyph) : List Char :=
  text.filterMap Glyph.char?

/-- A backslash in double quotes is an escape before a few characters only. -/
def escapedGlyphs (quoted : Bool) (c : Char) : List Glyph :=
  if c = '\n' then []
  else if quoted && !(['$', '`', '"', '\\'].contains c) then [.char '\\' true, .char c true]
  else [.mark, .char c true]

/-- The commands that end in a piece and what follows it, and the one left open,
which begins with `text`. -/
def walk (quoted : Bool) (text : List Glyph) : Shell → List (List Glyph) × List Glyph
  | done => ([], text)
  | plain c rest => walk quoted (text ++ [.char c quoted]) rest
  | escaped c rest => walk quoted (text ++ escapedGlyphs quoted c) rest
  | single quotation rest => walk quoted (text ++ .mark :: quotation.map (.char · true)) rest
  | double body rest =>
    let quotation := walk true (text ++ [.mark]) body
    let others := walk quoted quotation.2 rest
    (quotation.1 ++ others.1, others.2)
  | substitute _ body rest =>
    let inner := walk false [] body
    let others := walk quoted (text ++ [.hole]) rest
    (inner.1 ++ inner.2 :: others.1, others.2)
  | group body rest =>
    let inner := walk false [] body
    let others := walk quoted text rest
    (inner.1 ++ inner.2 :: others.1, others.2)
  | operator _ rest =>
    let others := walk quoted [] rest
    (text :: others.1, others.2)

/-- The simple commands a shell runs, at any depth. -/
def simpleCommands (shell : Shell) : List (List Glyph) :=
  let commands := walk false [] shell
  (commands.1 ++ [commands.2]).filter fun text => text.any fun glyph => !glyph.isBlank

/-- What a simple command begins with: its text after leading blanks, up to the first
substitution. -/
def lead (text : List Glyph) : List Char :=
  if text.contains .hole then trimStart (chars (text.takeWhile Glyph.notHole))
  else trimStart (chars (text.rdropWhile Glyph.isBlank))

end Shell

end Lobu.Worker
