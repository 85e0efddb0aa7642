import Mathlib.Data.List.ReduceOption
import Teleop.Cloud.RequestParser

/-!
# Core-pinning profiles

Which cores a role runs on, read from a text with one assignment a line, and whether a machine
has those cores.  How a text is quoted in a message is a parameter.
-/

namespace Teleop.Core

open Teleop.Lib Teleop.Cloud

inductive Role where
  | video
  | control
  | network
  | input
  | media
  | storage
  | spare
  deriving DecidableEq, Repr

/-- All roles in canonical order. -/
def Role.all : List Role := [.video, .control, .network, .input, .media, .storage, .spare]

def Role.key : Role → String
  | .video => "video"
  | .control => "control"
  | .network => "network"
  | .input => "input"
  | .media => "media"
  | .storage => "storage"
  | .spare => "spare"

/-- The role of a key in upper or lower case. -/
def Role.fromKey (s : List Char) : Option Role :=
  let lower := s.map Char.toLower
  Role.all.find? fun r => r.key.toList = lower

/-- What is wrong with a line. -/
inductive LineKind where
  | missingEquals (raw : String)
  | unknownRole (key : String)
  | badCoreSpec (reason : String)
  | duplicateRole (key : String)
  deriving DecidableEq, Repr

structure ProfileError where
  lineno : Nat
  kind : LineKind
  deriving DecidableEq, Repr

structure CoreProfile where
  assigned : HashMap String (List Nat)

section Text

/-- `str::parse::<usize>` on a 64-bit target. -/
def parseUsize (text : List Char) : Option Nat := (parseU64 text).map UInt64.toNat

/-- A carriage return before the line feed belongs to the line ending. -/
def withoutReturn (line : List Char) : List Char :=
  if line.getLast? = some '\r' then line.dropLast else line

/-- The lines among the pieces between line feeds; an empty last piece is none. -/
def linesOf : List (List Char) → List (List Char)
  | [] => []
  | [last] => if last = [] then [] else [last]
  | piece :: pieces => withoutReturn piece :: linesOf pieces

/-- `str::lines`. -/
def lines (text : List Char) : List (List Char) := linesOf (text.splitOn '\n')

end Text

section Parser

variable (debug : List Char → String)

/-- An inclusive range between two numbers, as the text of a part gives it. -/
def parseRange (part a b : List Char) : Except String (List Nat) :=
  match parseUsize (trim a), parseUsize (trim b) with
  | some a, some b =>
      if b < a ∨ 4096 < b - a then .error ("range " ++ debug part)
      else .ok (List.range' a (b + 1 - a))
  | _, _ => .error ("range " ++ debug part)

def parseIndex (part : List Char) : Except String (List Nat) :=
  match parseUsize part with
  | some index => .ok [index]
  | none => .error ("index " ++ debug part)

/-- The cores of one part of a list; a blank one has none. -/
def parsePart (part : List Char) : Except String (List Nat) :=
  let part := trim part
  if part = [] then .ok []
  else
    match splitOnce '-' part with
    | some (a, b) => parseRange debug part a b
    | none => parseIndex debug part

def parseCoreList (s : List Char) : Except String (List Nat) :=
  (s.splitOn ',').foldlM (extend (parsePart debug)) []

/-- The assignments after one more line. -/
def parseLine (assigned : HashMap String (List Nat)) (lineno : Nat) (raw : List Char) :
    Except ProfileError (HashMap String (List Nat)) :=
  let line := trim (raw.takeWhile (· ≠ '#'))
  if line = [] then .ok assigned
  else
    let bad (kind : LineKind) := .error { lineno := lineno + 1, kind }
    match splitOnce '=' line with
    | none => bad (.missingEquals (.ofList raw))
    | some (key, value) =>
        let key := trim key
        match Role.fromKey key with
        | none => bad (.unknownRole (.ofList key))
        | some role =>
            match parseCoreList debug (trim value) with
            | .error s => bad (.badCoreSpec s)
            | .ok cores =>
                if cores = [] then bad (.badCoreSpec "empty list")
                else if (assigned.lookup role.key).isSome then bad (.duplicateRole (.ofList key))
                else .ok (assigned.insert role.key cores)

/-- The assignments after the remaining lines, the first of which has index `lineno`. -/
def parseLines (assigned : HashMap String (List Nat)) (lineno : Nat) :
    List (List Char) → Except ProfileError (HashMap String (List Nat))
  | [] => .ok assigned
  | raw :: rest =>
      match parseLine debug assigned lineno raw with
      | .error failure => .error failure
      | .ok assigned => parseLines assigned (lineno + 1) rest

end Parser

namespace CoreProfile

def parse (debug : List Char → String) (text : String) : Except ProfileError CoreProfile :=
  (parseLines debug ∅ 0 (lines text.toList)).map CoreProfile.mk

/-- The cores of a role, none when it is not assigned. -/
def coresFor (profile : CoreProfile) (role : Role) : List Nat :=
  (profile.assigned.lookup role.key).getD []

/-- Marks one core as taken by a role. -/
def mark (machineCores : Nat) (seen : Vector Bool machineCores) (claim : Role × Nat) :
    Except String (Vector Bool machineCores) :=
  let (role, c) := claim
  if present : c < machineCores then
    if seen[c] then
      .error ("core " ++ toString c ++ " assigned multiple times (" ++ role.key ++ ")")
    else .ok (seen.set c true)
  else .error (role.key ++ " requests core " ++ toString c ++ " >= " ++ toString machineCores)

/-- Marks the cores of one role after another.  The table for them is taken to fit in memory, as
that of any real count of cores does. -/
def validate (profile : CoreProfile) (machineCores : Nat) : Except String Unit :=
  let claims (role : Role) := (profile.coresFor role).map fun c => (role, c)
  let marked := Role.all.foldlM (fun seen role => (claims role).foldlM (mark machineCores) seen)
    (Vector.replicate machineCores false)
  marked.map fun _ => ()

end CoreProfile

end Teleop.Core
