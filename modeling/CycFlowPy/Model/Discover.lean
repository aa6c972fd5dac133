/-
Module: CycFlowPy.Model.Discover
Purpose: `discover()`, which asks a server for its buffers and then for the
  rule of each, while buffers are registered and unregistered.
Trusted boundary: the server lists the names of the buffers it has at that
  moment, all different, and answers a name that it does not have with an empty
  text; the text of a rule is not empty and reads back (`RuleText`)
Main exports: RuleText, DiscoverState, DiscoverAction, DiscoverState.step,
  DiscoverState.Returned
-/
import CycFlowPy.Lib.Runs

namespace CycFlowPy.Discover

open Runs

/-!
Between any two requests the server may publish other buffers.

[SRC python/cycflow/__init__.py:163-170]
[SRC src/bind_tcp.cpp:24-37]
[SRC src/bind_server.cpp:38-46]
-/

/-- `RecRule.to_text` and `RecRule.from_text`. -/
structure RuleText (ρ : Type) where
  toText : ρ → String
  fromText : String → Option ρ
  nonempty : ∀ rule, toText rule ≠ ""
  reads : ∀ rule, fromText (toText rule) = some rule

/-- Where the call is: before the request for the list, in the loop over the
names that are left, or ended by an exception. -/
inductive DiscoverPoint where
  | listing
  | asking (names : List String)
  | raised
deriving Repr, DecidableEq

variable {ρ : Type}

/-- `published` are the buffers of the server with their rules, and `out` is
the dict, in insertion order. -/
structure DiscoverState (ρ : Type) where
  published : List (String × ρ)
  point : DiscoverPoint := .listing
  out : List (String × ρ) := []
deriving Repr, DecidableEq

/-- `serve` is any change of the server's buffers, and `fail` an exception in
the next request. -/
inductive DiscoverAction (ρ : Type) where
  | serve (published : List (String × ρ))
  | requestBufferList
  | requestRecRule
  | fail
deriving Repr, DecidableEq

/-- `out[name] = rule`. -/
def setItem (name : String) (rule : ρ) :
    List (String × ρ) → List (String × ρ)
  | [] => [(name, rule)]
  | (key, value) :: rest =>
      if key = name then (key, rule) :: rest
      else (key, value) :: setItem name rule rest

/-- The names of a dict, or of the server's buffers. -/
def names (entries : List (String × ρ)) : List String :=
  entries.map (·.1)

variable (texts : RuleText ρ)

/-- The server's answer to `request_rec_rule`. -/
def DiscoverState.recRule (s : DiscoverState ρ) (name : String) : String :=
  match s.published.lookup name with
  | none => ""
  | some rule => texts.toText rule

/-- The body of the loop. -/
def DiscoverState.ask (s : DiscoverState ρ) (name : String)
    (rest : List String) : DiscoverState ρ :=
  let text := s.recRule texts name
  if text = "" then { s with point := .asking rest }
  else
    match texts.fromText text with
    | none => { s with point := .raised }
    | some rule =>
        { s with point := .asking rest, out := setItem name rule s.out }

def DiscoverState.step (s : DiscoverState ρ) :
    DiscoverAction ρ → Option (DiscoverState ρ)
  | .serve published =>
      whenever (names published).Nodup { s with published := published }
  | .requestBufferList =>
      whenever (s.point = .listing)
        { s with point := .asking (names s.published) }
  | .requestRecRule =>
      match s.point with
      | .asking (name :: rest) => some (s.ask texts name rest)
      | _ => none
  | .fail =>
      match s.point with
      | .listing | .asking (_ :: _) => some { s with point := .raised }
      | _ => none

def DiscoverState.Returned (s : DiscoverState ρ) : Prop :=
  s.point = .asking []

def DiscoverAction.isServe : DiscoverAction ρ → Bool
  | .serve _ => true
  | _ => false

end CycFlowPy.Discover
