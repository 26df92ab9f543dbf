import ArithTree.Fault
import ArithTree.Token.Lexeme
import ArithTree.Token.Split

/-!
# Postfix order

Tokens in infix order are put into postfix order with a stack of operators and opening brackets:
numbers go out at once, an operator first sends out the stacked operators that bind at least as
tightly, and a closing bracket sends out everything above the nearest opening one. At the end the
stack goes out from the top, and what is on it counts as operators, unmatched opening brackets
included; folding the sequence into a tree is what refuses those.

* `Token.arrive` : what one token sends out, and the stack behind it.
* `Token.toPostfix` : a whole sequence in postfix order.
-/

namespace ArithTree.Token

/-- What is waiting to go out, the top first. -/
abbrev Stack := List Token

/-- Whether a token stands for an opening bracket, whatever its kind. -/
def opens (token : Token) : Bool := token.value = "("

/-- What an operator sends out before it is stacked, and the stack behind it. An operator without
a precedence cannot be compared with a stacked one. -/
def pushOperator (token : Token) : Stack → Except Breakdown (List Token × Stack)
  | [] => .ok ([], [token])
  | top :: stack =>
    match precedence? top.value, precedence? token.value with
    | none, _ => .ok ([], token :: top :: stack)
    | some _, none => .error (.unlistedOperator token.value)
    | some above, some own =>
      if own ≤ above then
        (pushOperator token stack).map fun (sent, stack) => (top :: sent, stack)
      else .ok ([], token :: top :: stack)

/-- What a closing bracket sends out, and the stack without the opening bracket that it meets. -/
def closeBracket (stack : Stack) : List Token × Stack :=
  (stack.takeWhile (!·.opens), (stack.dropWhile (!·.opens)).drop 1)

/-- What a token sends out, and the stack behind it. -/
def arrive (stack : Stack) (token : Token) : Except Breakdown (List Token × Stack) :=
  if token.kind = .number then .ok ([token], stack)
  else if token.kind = .operator then pushOperator token stack
  else if token.value = "(" then .ok ([], token :: stack)
  else if token.value = ")" then .ok (closeBracket stack)
  else .ok ([], stack)

/-- The rest of the stack, which goes out as operators. -/
def drain (stack : Stack) : List Token := stack.map fun token => { token with kind := .operator }

/-- What the tokens send out from a given stack on, and what is left on the stack in the end. -/
def toPostfixFrom (stack : Stack) : List Token → Except Breakdown (List Token)
  | [] => .ok (drain stack)
  | token :: tokens =>
    (arrive stack token).bind fun (sent, stack) =>
      (toPostfixFrom stack tokens).map (sent ++ ·)

/-- A sequence of tokens in postfix order. -/
def toPostfix (tokens : List Token) : Except Breakdown (List Token) := toPostfixFrom [] tokens

/-- The postfix order of a text that is read symbol by symbol. -/
def postfixOfSymbols (text : String) : Except Failure (List Token) :=
  (toPostfix (split text)).mapError .breakdown

/-- The postfix order of a text that is read lexeme by lexeme. -/
def postfixOfLexemes (text : String) : Except Failure (List Token) :=
  ((lexemes text).mapError Failure.fault).bind fun tokens =>
    (toPostfix tokens).mapError .breakdown

end ArithTree.Token
