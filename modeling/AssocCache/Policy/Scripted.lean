import AssocCache.Policy

/-!
# Policies to look at stores with

Policies that no configuration can name.  They show what a store does by itself, and what it
does in states that no other policy leads to.
-/

/-!
## The passive policy

A policy that does nothing on any hook and gives up the least recently used way of
a stack that nobody moves.  It shows the behaviour of a set by itself, in either
layout.
-/

namespace AssocCache

/-- A policy that does nothing, with a layout of choice. -/
structure Passive where
  fullyAssociative : Bool := false
  duelsSets : Bool := false
  deriving DecidableEq, Repr

instance : Policy Passive where
  chooseVictim policy set := do
    pure (← set.tailWay, policy, set)
  onHit policy set _ := .ok (policy, set)
  onInsert policy set _ _ := .ok (policy, set)
  fullyAssociative policy := policy.fullyAssociative
  duelsSets policy := policy.duelsSets

/-!
## Scripted policies

`Scripted π` is a policy around another one, made to look at a store from the
inside and to lead it into states that no policy would.  Before a hook of the
inner policy runs, the commands of a script act on the set.  Hooks can be muted,
and the choice of victims can be taken over by a list.  What happened is recorded
as a list of events, together with the set as it was after the latest hook.
-/

/-- The hooks of a policy. -/
inductive Hook where
  | chooseVictim
  | hit
  | fill
  | insert
  | invalidate
  deriving DecidableEq, Repr

/-- What a script can do to a set.  A way that is left out is the way the hook is
about. -/
inductive Command where
  | toHead (way : Option Nat)
  | toTail (way : Option Nat)
  | toPosition (way : Option Nat) (position : Nat)
  | promote (way : Option Nat) (distance : Nat)
  | setWord (way : Option Nat) (word : Nat)
  /-- Overwrites a whole block with another one of the set. -/
  | copy (source target : Option Nat)
  | checkTags
  | declareBroken (reason : String)
  | find (tag : Nat)
  deriving DecidableEq, Repr

/-- What is recorded of a hook, or of a search by a script. -/
inductive HookEvent where
  | chose (way : Nat)
  | hit (way : Nat)
  | filled (way : Nat)
  | inserted (way : Nat) (access : AccessKind)
  | invalidated (way : Nat)
  | found (tag : Nat) (way : Option Nat)
  deriving DecidableEq, Repr

/-- A command's effect on a set, for a hook about a way, and what is recorded of
it. -/
def Command.perform (command : Command) (about : Nat) (set : CacheSet) :
    Except Fault (CacheSet × List HookEvent) :=
  match command with
  | .toHead way => do pure (← set.moveToHead (way.getD about), [])
  | .toTail way => do pure (← set.moveToTail (way.getD about), [])
  | .toPosition way position => do pure (← set.moveTo (way.getD about) position, [])
  | .promote way distance => do pure (← set.promote (way.getD about) distance, [])
  | .setWord way word => do pure (← set.setWord (way.getD about) word, [])
  | .copy source target => do
    let block ← set.blockAt (source.getD about)
    pure (← set.change (target.getD about) fun _ => block, [])
  | .checkTags => do
    set.checkUniqueTags
    pure (set, [])
  | .declareBroken reason => .error (set.broken (.declared reason))
  | .find tag => .ok (set, [.found tag (set.find tag)])

/-- The effect of commands, one after the other. -/
def Command.performAll (commands : List Command) (about : Nat) (set : CacheSet) :
    Except Fault (CacheSet × List HookEvent) :=
  commands.foldlM (fun (set, events) command => do
    let (set, more) ← command.perform about set
    pure (set, events ++ more)) (set, [])

/-- A policy led by a script. -/
structure Scripted (π : Type) where
  inner : π
  script : Hook → List Command := fun _ => []
  /-- The hooks of the inner policy that are skipped. -/
  muted : List Hook := []
  /-- The victims to choose in turn, instead of asking the inner policy. -/
  victims : List Nat := []
  /-- How often a victim was asked for. -/
  asked : Nat := 0
  /-- What happened since the record was last cleared. -/
  events : List HookEvent := []
  /-- The touched set after the latest hook since then. -/
  touched : Option CacheSet := none

namespace Scripted

variable {π : Type} [Policy π]

omit [Policy π] in
/-- The policy with an empty record. -/
def cleared (policy : Scripted π) : Scripted π := { policy with events := [], touched := none }

omit [Policy π] in
/-- The policy once a hook has run. -/
def record (policy : Scripted π) (inner : π) (set : CacheSet) (events : List HookEvent) :
    Scripted π :=
  { policy with inner, events := policy.events ++ events, touched := some set }

omit [Policy π] in
/-- Runs the script of a hook about a way, then the hook itself unless it is
muted. -/
def around (policy : Scripted π) (set : CacheSet) (hook : Hook) (way : Nat) (event : HookEvent)
    (body : π → CacheSet → Except Fault (π × CacheSet)) :
    Except Fault (Scripted π × CacheSet) := do
  let (set, events) ← Command.performAll (policy.script hook) way set
  let (inner, set) ←
    if policy.muted.contains hook then pure (policy.inner, set) else body policy.inner set
  pure (policy.record inner set (events ++ [event]), set)

/-- The victim that is chosen: the next one of the list, or else that of the inner
policy. -/
def pick (policy : Scripted π) (set : CacheSet) : Except Fault (Nat × π × CacheSet) :=
  match policy.victims[policy.asked % policy.victims.length]? with
  | some way => .ok (way, policy.inner, set)
  | none => Policy.chooseVictim policy.inner set

instance : Policy (Scripted π) where
  chooseVictim policy set := do
    let (set, events) ← Command.performAll (policy.script .chooseVictim) 0 set
    let (way, inner, set) ← policy.pick set
    let policy := { policy with asked := policy.asked + 1 }
    pure (way, policy.record inner set (events ++ [.chose way]), set)
  onHit policy set way :=
    policy.around set .hit way (.hit way) fun inner set => Policy.onHit inner set way
  onFill policy set way :=
    policy.around set .fill way (.filled way) fun inner set => Policy.onFill inner set way
  onInsert policy set way access :=
    policy.around set .insert way (.inserted way access) fun inner set =>
      Policy.onInsert inner set way access
  onInvalidate policy set way :=
    policy.around set .invalidate way (.invalidated way) fun inner set =>
      Policy.onInvalidate inner set way
  victimNote policy index way :=
    if policy.victims.isEmpty then Policy.victimNote policy.inner index way else none
  fullyAssociative policy := Policy.fullyAssociative policy.inner
  duelsSets policy := Policy.duelsSets policy.inner

end Scripted

end AssocCache
