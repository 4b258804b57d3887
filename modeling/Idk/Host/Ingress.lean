import Idk.Logic.Stream

/-!
# What reaches the terminal parser

`Ingress` (`terminal.rs`) stands between the PTY and the parser, which would collect the
body of an operating system command without a bound.  It holds such a body back until its
terminator and gives up on one that is too long.
-/

namespace Idk.Terminal

open Idk.Logic

/-- `MAX_OSC_BYTES`. -/
def maxOscBytes : Nat := 16 * 1024

inductive IngressState where
  | ground
  | escape
  | osc
  | discardOsc
deriving DecidableEq, Repr

structure Ingress where
  state : IngressState
  osc : List UInt8
  limited : Bool
deriving DecidableEq, Repr

/-- BEL, CAN, SUB and ESC. -/
def endsOsc (byte : UInt8) : Bool := byte == 0x07 || byte == 0x18 || byte == 0x1a || byte == 0x1b

/-- CAN, SUB or an intermediate or final ASCII byte. -/
def leavesEscape (byte : UInt8) : Bool :=
  byte == 0x18 || byte == 0x1a || (0x20 ≤ byte && byte ≤ 0x7e)

namespace Ingress

def new : Ingress := ⟨.ground, [], false⟩

/-- One round of the loop of `filter`, with the bytes that it emits. -/
def step (ingress : Ingress) (byte : UInt8) : Ingress × List UInt8 :=
  match ingress.state with
  | .ground => ({ ingress with state := if byte = 0x1b then .escape else .ground }, [byte])
  | .escape =>
    -- the ESC is in the parser already; its `]` is held back
    if byte = 93 then ({ ingress with osc := ingress.osc ++ [byte], state := .osc }, [])
    else ({ ingress with state := if leavesEscape byte then .ground else .escape }, [byte])
  | .osc =>
    if endsOsc byte then
      ({ ingress with osc := [], state := if byte = 0x1b then .escape else .ground },
        ingress.osc ++ [byte])
    else if ingress.osc.length < maxOscBytes then
      ({ ingress with osc := ingress.osc ++ [byte] }, [])
    else
      -- cancels the ESC that waits in the parser
      ({ state := .discardOsc, osc := [], limited := true }, [0x18])
  | .discardOsc =>
    if byte = 0x07 then ({ ingress with state := .ground }, [])
    else if byte = 0x18 ∨ byte = 0x1a then ({ ingress with state := .ground }, [byte])
    else if byte = 0x1b then ({ ingress with state := .escape }, [byte])
    else (ingress, [])

/-- `filter`, with its fast path. -/
def filter (ingress : Ingress) (bytes : List UInt8) : Ingress × List UInt8 :=
  if ingress.state = .ground ∧ ¬ bytes.contains 0x1b then (ingress, bytes)
  else machine step ingress bytes

end Ingress

end Idk.Terminal
