import GrammarCompiler.Naja.Assembly.Instruction

/-!
The frame of a compiled program and the slots in it. The program calls the
compiled function and exits with what it returns; the function's name and body
are slots. A body in turn is built from lines of instructions and from slots
for expressions.
-/

namespace GrammarCompiler.Naja.Assembly

/-- The slots of generated code. -/
inductive Slot where
  | functionName
  | functionBody
  | expression
deriving DecidableEq, Repr, Inhabited

/-- The text that marks a slot. -/
def Slot.placeholder : Slot → String
  | .functionName => "\x7bfunction_name\x7d"
  | .functionBody => "\x7bfunction_body\x7d"
  | .expression => "\x7bexpression\x7d"

/-- A stretch of a template: text as it stands, or a slot. -/
inductive Stretch where
  | fixed (text : String)
  | slot (slot : Slot)
deriving DecidableEq, Repr, Inhabited

def Stretch.chars : Stretch → List Char
  | .fixed text => text.toList
  | .slot s => s.placeholder.toList

/-- What stands between two lines of a function body. -/
def nextLine : String := "\n        "

/-- Lines of a function body in one text. -/
def joinLines : List String → String
  | [] => ""
  | [line] => line
  | line :: lines => line ++ nextLine ++ joinLines lines

def programFrame : List Stretch :=
  [.fixed "format PE console\n",
   .fixed "entry start\n\n",
   .fixed "section '.text' code readable executable\n\n",
   .fixed "start:\n",
   .fixed "        call ", .slot .functionName, .fixed "\n",
   .fixed "        push eax\n",
   .fixed "        call [ExitProcess]\n\n",
   .slot .functionName, .fixed ":\n",
   .fixed "        ", .slot .functionBody, .fixed "\n\n",
   .fixed "section '.idata' import data readable writeable\n\n",
   .fixed "        dd 0,0,0,RVA kernel_name,RVA kernel_table\n",
   .fixed "        dd 0,0,0,0,0\n\n",
   .fixed "kernel_table:\n",
   .fixed "        ExitProcess dd RVA _ExitProcess\n",
   .fixed "        dd 0\n\n",
   .fixed "kernel_name db 'KERNEL32.DLL',0\n\n",
   .fixed "_ExitProcess dw 0\n",
   .fixed "        db 'ExitProcess',0\n\n",
   .fixed "section '.reloc' fixups data readable discardable\n"]

/-- The frame of a program with open slots. -/
def programTemplate : List Char := programFrame.flatMap Stretch.chars

end GrammarCompiler.Naja.Assembly
