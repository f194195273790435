namespace ThreadSoup

inductive StackError where
  | underflow
  | overflow (capacity : Nat)
deriving DecidableEq

def StackError.message : StackError → String
  | .underflow => "pop from an empty stack"
  | .overflow capacity => s!"push onto a full stack of {capacity} values"

/-- A bounded stack of literals, top first. -/
structure Stack where
  values : List Int32
  capacity : Nat
deriving DecidableEq

namespace Stack

def empty (capacity : Nat) : Stack := { values := [], capacity }

def depth (stack : Stack) : Nat := stack.values.length

def isEmpty (stack : Stack) : Bool := stack.values.isEmpty

def isFull (stack : Stack) : Bool := stack.capacity ≤ stack.depth

def top? (stack : Stack) : Option Int32 := stack.values.head?

/-- The values from the bottom to the top. -/
def toList (stack : Stack) : List Int32 := stack.values.reverse

def push (stack : Stack) (value : Int32) : Except StackError Stack :=
  if stack.isFull then .error (.overflow stack.capacity)
  else .ok { stack with values := value :: stack.values }

def pop (stack : Stack) : Except StackError (Int32 × Stack) :=
  match stack.values with
  | [] => .error .underflow
  | value :: values => .ok (value, { stack with values })

end Stack

/-- A pointer that walks the grid in one direction with a stack of its own. -/
structure Thread where
  ip : Nat
  stack : Stack
  /-- The number of turns taken. -/
  age : Nat
  reversed : Bool
deriving DecidableEq

namespace Thread

def start (ip : Nat) (reversed : Bool) (capacity : Nat) : Thread :=
  { ip, stack := Stack.empty capacity, age := 0, reversed }

def direction (thread : Thread) : Int := if thread.reversed then -1 else 1

end Thread

end ThreadSoup
