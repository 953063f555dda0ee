/- Texts as messages quote them, with escapes for quotes, backslashes and control characters. -/

import WorkflowGraph.Number.Digits

set_option autoImplicit false
set_option relaxedAutoImplicit false

namespace WorkflowGraph.Text

def hexDigits (n : Nat) : List Char :=
  if n < 16 then [Digits.hexChar n] else hexDigits (n / 16) ++ [Digits.hexChar (n % 16)]

def escapeChar (c : Char) : List Char :=
  if c = '"' then ['\\', '"']
  else if c = '\\' then ['\\', '\\']
  else if c = '\n' then ['\\', 'n']
  else if c = '\r' then ['\\', 'r']
  else if c = '\t' then ['\\', 't']
  else if c.toNat = 0 then ['\\', '0']
  else if c.toNat < 0x20 ∨ (0x7F ≤ c.toNat ∧ c.toNat < 0xA0) then
    '\\' :: 'u' :: '\x7b' :: (hexDigits c.toNat ++ ['\x7d'])
  else [c]

def quoted (s : String) : String :=
  String.ofList ('"' :: (s.toList.flatMap escapeChar ++ ['"']))

end WorkflowGraph.Text
