-- SUMMARY: Shell scripts: commands with redirections, in pipelines and lists.

import BranchTally.Text.Class

/-! # Scripts

A script is a list of pipelines. Whether a pipeline runs depends on the status of the one before it
and on the sign between them. A command is a list of words; a word is made of texts and parameters,
and a quoted word stays one word whatever its parameters hold.

This is a small part of the language of the system's shell: a stand-in for what reads the scripts of
linter commands there.
-/

namespace BranchTally

/-- A piece of a word. -/
inductive WordPart where
  | text (s : List Char)
  | parameter (quoted : Bool) (name : List Char)
  deriving DecidableEq

/-- A word; `quoted` tells that quotes stood in it, so that it is a word even if it is empty. -/
structure ScriptWord where
  quoted : Bool
  parts : List WordPart
  deriving DecidableEq

/-- What a redirection does; a copy makes a stream go where another one goes. -/
inductive RedirectKind where
  | input
  | output
  | append
  | copy
  deriving DecidableEq

/-- A redirection of the stream with a number. -/
structure Redirect where
  stream : Nat
  kind : RedirectKind
  target : ScriptWord
  deriving DecidableEq

/-- A command: its words and redirections. -/
structure SimpleCommand where
  words : List ScriptWord := []
  redirects : List Redirect := []
  deriving DecidableEq

/-- When a pipeline runs, given the status before it. -/
inductive Condition where
  | always
  | success
  | failure
  deriving DecidableEq

/-- A pipeline and when it runs. -/
structure ScriptStep where
  condition : Condition
  commands : List SimpleCommand
  deriving DecidableEq

namespace Script

/-! ## Tokens -/

/-- A token of a script. -/
inductive Token where
  | word (w : ScriptWord)
  | redirect (stream : Nat) (kind : RedirectKind)
  | pipe
  | next (condition : Condition)
  deriving DecidableEq

/-- Where the tokenizer stands. -/
inductive Mode where
  | plain
  | single
  | double
  | comment
  deriving DecidableEq

/-- Adds a character to the last text of a word. -/
def pushChar (w : ScriptWord) (c : Char) : ScriptWord :=
  match w.parts.reverse with
  | .text s :: before => { w with parts := before.reverse ++ [.text (s ++ [c])] }
  | _ => { w with parts := w.parts ++ [.text [c]] }

/-- Adds a parameter to a word. -/
def pushParameter (w : ScriptWord) (quoted : Bool) (name : List Char) : ScriptWord :=
  { w with parts := w.parts ++ [.parameter quoted name] }

/-- The word that is being read, or an empty one. -/
def current (word : Option ScriptWord) : ScriptWord := word.getD ⟨false, []⟩

/-- The token of the word that ends here. -/
def finish (word : Option ScriptWord) : List Token := (word.map .word).toList

/-- The name of the parameter after a dollar sign, and the text after it. -/
def parameterName? : List Char → Option (List Char × List Char)
  | '\x7b' :: rest =>
    match rest.dropWhile (· ≠ '\x7d') with
    | _ :: tail => some (rest.takeWhile (· ≠ '\x7d'), tail)
    | [] => none
  | c :: rest =>
    if Text.isLatinLetter c || c = '_' then
      let isPart (d : Char) : Bool := Text.isLatinLetter d || Text.isLatinDigit d || d = '_'
      some (c :: rest.takeWhile isPart, rest.dropWhile isPart)
    else if Text.isLatinDigit c || ['@', '*', '#', '?'].contains c then some ([c], rest)
    else none
  | [] => none

/-- The stream number that a word is if it stands right before a redirection. -/
def stream? (word : Option ScriptWord) : Option Nat :=
  match word with
  | some ⟨false, [.text [c]]⟩ => if Text.isLatinDigit c then some (c.toNat - 48) else none
  | _ => none

/-- The tokens from here on, or `none` if the script is not understood. Each step takes a character,
so the length of the text is fuel enough. -/
def tokensFrom : (fuel : Nat) → Mode → Option ScriptWord → List Char → Option (List Token)
  | 0, .plain, word, _ => some (finish word)
  | 0, _, _, _ => none
  | _ + 1, .plain, word, [] | _ + 1, .comment, word, [] => some (finish word)
  | _ + 1, _, _, [] => none
  | fuel + 1, .comment, word, c :: rest =>
    if c = '\n' then tokensFrom fuel .plain word (c :: rest) else tokensFrom fuel .comment word rest
  | fuel + 1, .single, word, c :: rest =>
    if c = '\'' then tokensFrom fuel .plain word rest
    else tokensFrom fuel .single (some (pushChar (current word) c)) rest
  | fuel + 1, .double, word, c :: rest =>
    match c, rest with
    | '"', _ => tokensFrom fuel .plain word rest
    | '\x60', _ => none
    | '\\', d :: tail =>
      if d = '\n' then tokensFrom fuel .double word tail
      else if ['$', '\x60', '"', '\\'].contains d then
        tokensFrom fuel .double (some (pushChar (current word) d)) tail
      else tokensFrom fuel .double (some (pushChar (current word) c)) rest
    | '$', _ =>
      match parameterName? rest with
      | some (name, tail) =>
        tokensFrom fuel .double (some (pushParameter (current word) true name)) tail
      | none =>
        if rest.head? = some '(' then none
        else tokensFrom fuel .double (some (pushChar (current word) c)) rest
    | _, _ => tokensFrom fuel .double (some (pushChar (current word) c)) rest
  | fuel + 1, .plain, word, c :: rest =>
    let quotedWord : Option ScriptWord := some { current word with quoted := true }
    let after (token : Token) (tail : List Char) : Option (List Token) :=
      (tokensFrom fuel .plain none tail).map (finish word ++ token :: ·)
    let redirect (default : Nat) (kind : RedirectKind) (tail : List Char) : Option (List Token) :=
      match stream? word with
      | some n => (tokensFrom fuel .plain none tail).map (.redirect n kind :: ·)
      | none => after (.redirect default kind) tail
    let copied (d : Char) : ScriptWord := ⟨false, [.text [d]]⟩
    match c, rest with
    | ' ', _ | '\t', _ => (tokensFrom fuel .plain none rest).map (finish word ++ ·)
    | '\n', _ | ';', _ => after (.next .always) rest
    | '&', '&' :: tail => after (.next .success) tail
    | '|', '|' :: tail => after (.next .failure) tail
    | '&', _ => after (.next .always) rest
    | '|', _ => after .pipe rest
    | '>', '>' :: tail => redirect 1 .append tail
    | '>', '&' :: d :: tail =>
      (tokensFrom fuel .plain none tail).map fun more =>
        match stream? word with
        | some n => .redirect n .copy :: .word (copied d) :: more
        | none => finish word ++ .redirect 1 .copy :: .word (copied d) :: more
    | '>', _ => redirect 1 .output rest
    | '<', _ => redirect 0 .input rest
    | '\'', _ => tokensFrom fuel .single quotedWord rest
    | '"', _ => tokensFrom fuel .double quotedWord rest
    | '\\', d :: tail =>
      if d = '\n' then tokensFrom fuel .plain word tail
      else tokensFrom fuel .plain (some { pushChar (current word) d with quoted := true }) tail
    | '\\', [] => tokensFrom fuel .plain (some (pushChar (current word) c)) []
    | '#', _ =>
      if word.isNone then tokensFrom fuel .comment word rest
      else tokensFrom fuel .plain (some (pushChar (current word) c)) rest
    | '$', _ =>
      match parameterName? rest with
      | some (name, tail) =>
        tokensFrom fuel .plain (some (pushParameter (current word) false name)) tail
      | none =>
        if rest.head? = some '(' then none
        else tokensFrom fuel .plain (some (pushChar (current word) c)) rest
    | '\x60', _ | '(', _ | ')', _ => none
    | _, _ => tokensFrom fuel .plain (some (pushChar (current word) c)) rest

/-- The tokens of a script. -/
def tokens? (s : List Char) : Option (List Token) := tokensFrom (s.length + 1) .plain none s

/-! ## Steps -/

/-- The steps that tokens form. `condition` is that of the pipeline that is being read, `done` its
finished commands and `open` the command that is being read. -/
def stepsFrom (condition : Condition) (done : List SimpleCommand) (open' : SimpleCommand) :
    List Token → Option (List ScriptStep)
  | [] => if open' = {} then (if done.isEmpty then some [] else none)
      else some [⟨condition, done ++ [open']⟩]
  | .word w :: rest => stepsFrom condition done { open' with words := open'.words ++ [w] } rest
  | .redirect stream kind :: .word w :: rest =>
    stepsFrom condition done { open' with redirects := open'.redirects ++ [⟨stream, kind, w⟩] } rest
  | .redirect _ _ :: _ => none
  | .pipe :: rest => if open' = {} then none else stepsFrom condition (done ++ [open']) {} rest
  | .next following :: rest =>
    if open' = {} then
      if done.isEmpty && following = .always then stepsFrom condition done open' rest else none
    else (stepsFrom following [] {} rest).map (⟨condition, done ++ [open']⟩ :: ·)

/-- Reads a script; `none` if it is not understood. -/
def parse? (s : List Char) : Option (List ScriptStep) := (tokens? s).bind (stepsFrom .always [] {})

end Script

end BranchTally
