import SecretEnv.Resolution
import SecretEnv.Settings
import SecretEnv.Text
import SecretEnv.Vault.Item.Json

/-!
A vault behind a command-line program. Every lookup runs the program once; it prints the item as
JSON, or fails and says why. That an item is unknown is told from other failures by the words of
the program alone.
-/
namespace SecretEnv

structure ProgramOutput where
  failure : Option String
  stdout : List UInt8
  stderr : List UInt8
  deriving DecidableEq, Repr

def ProgramOutput.ofExitCode (code : Nat) (stdout stderr : List UInt8) : ProgramOutput :=
  ⟨if code = 0 then none else some ("exit status: " ++ toString code), stdout, stderr⟩

abbrev Program := List String → Except String ProgramOutput

abbrev Command (μ : Type) := List String → Marked μ (Except String ProgramOutput)

/-- Notes the arguments of every run; a program that did not start did not run. -/
def Program.recorded (program : Program) : Command (List String) := fun arguments =>
  match program arguments with
  | .ok output => ⟨[arguments], .ok output⟩
  | .error cause => .silent (.error cause)

structure CommandVault where
  vault : String
  program : Program

namespace CommandVault

def vaultName? (settings : Settings) : Except VaultError String :=
  match settings.vault with
  | some vault => .ok vault
  | none => .error (.unavailable "no vault name configured")

def unknownItemMarker : List Char :=
  "isn't an item".toList

def arguments (vault : String) (itemName : String) : List String :=
  ["item", "get", itemName, "--vault", vault, "--format", "json"]

def said (stream : List UInt8) : List Char :=
  Text.trim (Text.Utf8.decodeLossy stream)

def readItem (stdout : List UInt8) : Except VaultError Item :=
  match Item.readChars? (said stdout) with
  | some item => .ok item
  | none => .error (.invalidResponse (Item.complaint (said stdout)))

/-- An unknown item is absent; every other failure is an error. -/
def readFailure (status : String) (stderr : List UInt8) : Except VaultError (Option Item) :=
  let words := said stderr
  if Text.occurs unknownItemMarker words then .ok none
  else .error (.commandFailed status (String.ofList words))

def readOutput (output : ProgramOutput) : Except VaultError (Option Item) :=
  match output.failure with
  | none => some <$> readItem output.stdout
  | some status => readFailure status output.stderr

section Calls

variable {μ : Type} (command : Command μ) (vault : String)

/-- An argument cannot hold the character that ends arguments. -/
def start (itemName : String) : Marked μ (Except VaultError ProgramOutput) :=
  let arguments := arguments vault itemName
  if arguments.any fun argument => '\x00' ∈ argument.toList then
    .silent (.error (.system "nul byte found in provided data"))
  else (command arguments).map (·.mapError .system)

def fetch (itemName : String) : Marked μ (Except VaultError (Option Item)) :=
  (start command vault itemName).map (·.bind readOutput)

def service : Service μ := fun location =>
  (fetch command vault location.itemName).map fun fetched => do
    let item? ← fetched
    return item?.bind (Vault.select location)

end Calls

def answers (self : CommandVault) : Vault :=
  (service self.program.recorded self.vault).answers

def perform (timing : Timing Resolution.Placed) (self : CommandVault) (query : Query) :
    Reply × List (List String) :=
  let served := query.serve timing (service self.program.recorded self.vault)
  (served.result, served.marks)

end CommandVault

namespace Program

def unstartable (cause : String) : Program := fun _ =>
  .error cause

def unknownItem (name : String) : ProgramOutput :=
  .ofExitCode 1 [] <| Text.Utf8.encode <|
    "[ERROR] \"" ++ name ++ "\" isn't an item. Specify the item with its UUID, name, or domain."

def scripted (outputs : List (String × ProgramOutput)) : Program
  | _ :: _ :: name :: _ => .ok ((outputs.lookup name).getD (unknownItem name))
  | _ => .ok (unknownItem "")

end Program

end SecretEnv
