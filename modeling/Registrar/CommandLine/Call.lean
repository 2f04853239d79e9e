import Registrar.CommandLine.Options
import Registrar.Run

/-! What a call prints, and the code it ends with. -/

namespace Registrar

namespace CommandLine

structure Reply where
  code : Nat
  output : Text := []
  errors : List Text := []
deriving DecidableEq

def versionLine : Text := "reflectgen 0.1.0\n".toList

def usage : Text := "usage: reflectgen [OUTPUT_DIR] [INPUT_DIR] [-r DIR]... [-o FILE]".toList

/-- The lines of a cause. Its later lines stand below the first one, right of the lead. -/
def causeLines (lead cause : Text) : List Text :=
  match cause.splitAt '\n' with
  | [] => []
  | first :: more => (lead ++ first) :: more.map (List.replicate lead.length ' ' ++ ·)

/-- The lines of the causes of a failure, each the cause of the one before it. Several of them are
numbered from zero. -/
def causesLines : List Text → List Text
  | [] => []
  | [cause] => [] :: "Caused by:".toList :: causeLines "    ".toList cause
  | causes =>
    [] :: "Caused by:".toList :: causes.zipIdx.flatMap fun (cause, number) =>
      causeLines ("    ".toList ++ Text.ofNat number ++ ": ".toList) cause

def failureLines (failure : Text) (causes : List Text) : List Text :=
  Text.splitAt '\n' ("Error: ".toList ++ failure) ++ causesLines causes

/-- The lines that tell why a run failed. Missing settings are put down to the call. -/
def faultLines (fault : Fault) : List Text :=
  match fault with
  | .missingSetting _ => failureLines usage [fault.message]
  | .walkRoot directory cause =>
    failureLines fault.message [walkMessage directory cause, cause.message]
  | .readHeader _ cause | .writeOutput _ cause => failureLines fault.message [cause.message]
  | .invalidMarker .. => failureLines fault.message []

def runSettings (limit : Level) (settings : Settings) (files : FileSystem) : Reply × FileSystem :=
  let events := settings.runEvents files
  match settings.run files with
  | (.error fault, written) =>
    ({ code := 1, errors := logLines limit events ++ faultLines fault }, written)
  | (.ok summary, written) =>
    let last := if summary.registered = 0 then [.nothingRegistered] else []
    ({ code := 0, errors := logLines limit (events ++ last) }, written)

def runOptions (options : Options) (files : FileSystem) : Reply × FileSystem :=
  match options.draft.build with
  | .error fault => ({ code := 1, errors := faultLines fault }, files)
  | .ok settings => runSettings options.logLevel settings files

/-- Answers a call. Arguments that are not understood end it with code 2. -/
def call (arguments : List Text) (files : FileSystem) : Reply × FileSystem :=
  match Options.ofArguments arguments with
  | .error .version => ({ code := 0, output := versionLine }, files)
  | .error .usage => ({ code := 2, errors := [usage] }, files)
  | .ok options => runOptions options files

end CommandLine

end Registrar
