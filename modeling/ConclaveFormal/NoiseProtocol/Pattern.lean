import Mathlib.Data.List.Basic

/-!
# Handshake patterns

A pattern is the order in which the two sides send their keys and mix shared
secrets, and flags for the keys each side has, starts with or must know in
advance.  The flags are written from the initiator's side.
-/

set_option autoImplicit false

namespace Conclave.NoiseProtocol

inductive Token where
  | s
  | e
  | ee
  | es
  | se
  | ss
  | f
  | ff
  | flipDir
  deriving DecidableEq, Repr

structure Pattern where
  flags : UInt16
  tokens : List Token
  deriving DecidableEq

namespace Pattern

/-! ## Flags -/

def flagLocalStatic : UInt16 := 0x0001

def flagLocalEphemeral : UInt16 := 0x0002

def flagLocalRequired : UInt16 := 0x0004

def flagLocalEphemReq : UInt16 := 0x0008

def flagLocalHybrid : UInt16 := 0x0010

def flagRemoteStatic : UInt16 := 0x0100

def flagRemoteEphemeral : UInt16 := 0x0200

def flagRemoteRequired : UInt16 := 0x0400

def flagRemoteEphemReq : UInt16 := 0x0800

def flagRemoteHybrid : UInt16 := 0x1000

def flagRemoteHybridReq : UInt16 := 0x2000

def reverseFlags (flags : UInt16) : UInt16 :=
  flags >>> 8 &&& (0x00FF : UInt16) ||| flags <<< 8 &&& (0xFF00 : UInt16)

/-! ## The patterns -/

def noisePatternN : Pattern where
  flags := flagLocalEphemeral ||| flagRemoteStatic ||| flagRemoteRequired
  tokens := [.e, .es]

def noisePatternK : Pattern where
  flags := flagLocalStatic ||| flagLocalEphemeral ||| flagLocalRequired ||| flagRemoteStatic |||
    flagRemoteRequired
  tokens := [.e, .es, .ss]

def noisePatternX : Pattern where
  flags := flagLocalStatic ||| flagLocalEphemeral ||| flagRemoteStatic ||| flagRemoteRequired
  tokens := [.e, .es, .s, .ss]

def noisePatternNN : Pattern where
  flags := flagLocalEphemeral ||| flagRemoteEphemeral
  tokens := [.e, .flipDir, .e, .ee]

def noisePatternNK : Pattern where
  flags := flagLocalEphemeral ||| flagRemoteStatic ||| flagRemoteEphemeral ||| flagRemoteRequired
  tokens := [.e, .es, .flipDir, .e, .ee]

def noisePatternNX : Pattern where
  flags := flagLocalEphemeral ||| flagRemoteStatic ||| flagRemoteEphemeral
  tokens := [.e, .flipDir, .e, .ee, .s, .es]

def noisePatternXN : Pattern where
  flags := flagLocalStatic ||| flagLocalEphemeral ||| flagRemoteEphemeral
  tokens := [.e, .flipDir, .e, .ee, .flipDir, .s, .se]

def noisePatternXK : Pattern where
  flags := flagLocalStatic ||| flagLocalEphemeral ||| flagRemoteStatic |||
    flagRemoteEphemeral ||| flagRemoteRequired
  tokens := [.e, .es, .flipDir, .e, .ee, .flipDir, .s, .se]

def noisePatternXX : Pattern where
  flags := flagLocalStatic ||| flagLocalEphemeral ||| flagRemoteStatic ||| flagRemoteEphemeral
  tokens := [.e, .flipDir, .e, .ee, .s, .es, .flipDir, .s, .se]

def noisePatternKN : Pattern where
  flags := flagLocalStatic ||| flagLocalEphemeral ||| flagLocalRequired ||| flagRemoteEphemeral
  tokens := [.e, .flipDir, .e, .ee, .se]

def noisePatternKK : Pattern where
  flags := flagLocalStatic ||| flagLocalEphemeral ||| flagLocalRequired ||| flagRemoteStatic |||
    flagRemoteEphemeral ||| flagRemoteRequired
  tokens := [.e, .es, .ss, .flipDir, .e, .ee, .se]

def noisePatternKX : Pattern where
  flags := flagLocalStatic ||| flagLocalEphemeral ||| flagLocalRequired ||| flagRemoteStatic |||
    flagRemoteEphemeral
  tokens := [.e, .flipDir, .e, .ee, .se, .s, .es]

def noisePatternIN : Pattern where
  flags := flagLocalStatic ||| flagLocalEphemeral ||| flagRemoteEphemeral
  tokens := [.e, .s, .flipDir, .e, .ee, .se]

def noisePatternIK : Pattern where
  flags := flagLocalStatic ||| flagLocalEphemeral ||| flagRemoteStatic |||
    flagRemoteEphemeral ||| flagRemoteRequired
  tokens := [.e, .es, .s, .ss, .flipDir, .e, .ee, .se]

def noisePatternIX : Pattern where
  flags := flagLocalStatic ||| flagLocalEphemeral ||| flagRemoteStatic ||| flagRemoteEphemeral
  tokens := [.e, .s, .flipDir, .e, .ee, .se, .s, .es]

def noisePatternXXfallback : Pattern where
  flags := flagLocalStatic ||| flagLocalEphemeral ||| flagRemoteStatic |||
    flagRemoteEphemeral ||| flagRemoteEphemReq
  tokens := [.e, .ee, .s, .se, .flipDir, .s, .es]

def noisePatternXnoidh : Pattern where
  flags := flagLocalStatic ||| flagLocalEphemeral ||| flagRemoteStatic ||| flagRemoteRequired
  tokens := [.e, .s, .es, .ss]

def noisePatternNXnoidh : Pattern where
  flags := flagLocalEphemeral ||| flagRemoteStatic ||| flagRemoteEphemeral
  tokens := [.e, .flipDir, .e, .s, .ee, .es]

def noisePatternXXnoidh : Pattern where
  flags := flagLocalStatic ||| flagLocalEphemeral ||| flagRemoteStatic ||| flagRemoteEphemeral
  tokens := [.e, .flipDir, .e, .s, .ee, .es, .flipDir, .s, .se]

def noisePatternKXnoidh : Pattern where
  flags := flagLocalStatic ||| flagLocalEphemeral ||| flagLocalRequired ||| flagRemoteStatic |||
    flagRemoteEphemeral
  tokens := [.e, .flipDir, .e, .s, .ee, .se, .es]

def noisePatternIKnoidh : Pattern where
  flags := flagLocalStatic ||| flagLocalEphemeral ||| flagRemoteStatic |||
    flagRemoteEphemeral ||| flagRemoteRequired
  tokens := [.e, .s, .es, .ss, .flipDir, .e, .ee, .se]

def noisePatternIXnoidh : Pattern where
  flags := flagLocalStatic ||| flagLocalEphemeral ||| flagRemoteStatic ||| flagRemoteEphemeral
  tokens := [.e, .s, .flipDir, .e, .s, .ee, .se, .es]

def noisePatternNNhfs : Pattern where
  flags := flagLocalEphemeral ||| flagLocalHybrid ||| flagRemoteEphemeral ||| flagRemoteHybrid
  tokens := [.e, .f, .flipDir, .e, .f, .ee, .ff]

def noisePatternNKhfs : Pattern where
  flags := flagLocalEphemeral ||| flagLocalHybrid ||| flagRemoteStatic |||
    flagRemoteEphemeral ||| flagRemoteHybrid ||| flagRemoteRequired
  tokens := [.e, .f, .es, .flipDir, .e, .f, .ee, .ff]

def noisePatternNXhfs : Pattern where
  flags := flagLocalEphemeral ||| flagLocalHybrid ||| flagRemoteStatic |||
    flagRemoteEphemeral ||| flagRemoteHybrid
  tokens := [.e, .f, .flipDir, .e, .f, .ee, .ff, .s, .es]

def noisePatternXNhfs : Pattern where
  flags := flagLocalStatic ||| flagLocalEphemeral ||| flagLocalHybrid ||| flagRemoteEphemeral |||
    flagRemoteHybrid
  tokens := [.e, .f, .flipDir, .e, .f, .ee, .ff, .flipDir, .s, .se]

def noisePatternXKhfs : Pattern where
  flags := flagLocalStatic ||| flagLocalEphemeral ||| flagLocalHybrid ||| flagRemoteStatic |||
    flagRemoteEphemeral ||| flagRemoteHybrid ||| flagRemoteRequired
  tokens := [.e, .f, .es, .flipDir, .e, .f, .ee, .ff, .flipDir, .s, .se]

def noisePatternXXhfs : Pattern where
  flags := flagLocalStatic ||| flagLocalEphemeral ||| flagLocalHybrid ||| flagRemoteStatic |||
    flagRemoteEphemeral ||| flagRemoteHybrid
  tokens := [.e, .f, .flipDir, .e, .f, .ee, .ff, .s, .es, .flipDir, .s, .se]

def noisePatternKNhfs : Pattern where
  flags := flagLocalStatic ||| flagLocalEphemeral ||| flagLocalRequired ||| flagLocalHybrid |||
    flagRemoteEphemeral ||| flagRemoteHybrid
  tokens := [.e, .f, .flipDir, .e, .f, .ee, .ff, .se]

def noisePatternKKhfs : Pattern where
  flags := flagLocalStatic ||| flagLocalEphemeral ||| flagLocalRequired ||| flagLocalHybrid |||
    flagRemoteStatic ||| flagRemoteEphemeral ||| flagRemoteHybrid ||| flagRemoteRequired
  tokens := [.e, .f, .es, .ss, .flipDir, .e, .f, .ee, .ff, .se]

def noisePatternKXhfs : Pattern where
  flags := flagLocalStatic ||| flagLocalEphemeral ||| flagLocalRequired ||| flagLocalHybrid |||
    flagRemoteStatic ||| flagRemoteEphemeral ||| flagRemoteHybrid
  tokens := [.e, .f, .flipDir, .e, .f, .ee, .ff, .se, .s, .es]

def noisePatternINhfs : Pattern where
  flags := flagLocalStatic ||| flagLocalEphemeral ||| flagLocalHybrid ||| flagRemoteEphemeral |||
    flagRemoteHybrid
  tokens := [.e, .f, .s, .flipDir, .e, .f, .ee, .ff, .se]

def noisePatternIKhfs : Pattern where
  flags := flagLocalStatic ||| flagLocalEphemeral ||| flagLocalHybrid ||| flagRemoteStatic |||
    flagRemoteEphemeral ||| flagRemoteHybrid ||| flagRemoteRequired
  tokens := [.e, .f, .es, .s, .ss, .flipDir, .e, .f, .ee, .ff, .se]

def noisePatternIXhfs : Pattern where
  flags := flagLocalStatic ||| flagLocalEphemeral ||| flagLocalHybrid ||| flagRemoteStatic |||
    flagRemoteEphemeral ||| flagRemoteHybrid
  tokens := [.e, .f, .s, .flipDir, .e, .f, .ee, .ff, .se, .s, .es]

def noisePatternXXfallbackHfs : Pattern where
  flags := flagLocalStatic ||| flagLocalEphemeral ||| flagLocalHybrid ||| flagRemoteStatic |||
    flagRemoteEphemeral ||| flagRemoteEphemReq ||| flagRemoteHybrid ||| flagRemoteHybridReq
  tokens := [.e, .f, .ee, .ff, .s, .se, .flipDir, .s, .es]

def noisePatternNXnoidhHfs : Pattern where
  flags := flagLocalEphemeral ||| flagLocalHybrid ||| flagRemoteStatic |||
    flagRemoteEphemeral ||| flagRemoteHybrid
  tokens := [.e, .f, .flipDir, .e, .f, .s, .ee, .ff, .es]

def noisePatternXXnoidhHfs : Pattern where
  flags := flagLocalStatic ||| flagLocalEphemeral ||| flagLocalHybrid ||| flagRemoteStatic |||
    flagRemoteEphemeral ||| flagRemoteHybrid
  tokens := [.e, .f, .flipDir, .e, .f, .s, .ee, .ff, .es, .flipDir, .s, .se]

def noisePatternKXnoidhHfs : Pattern where
  flags := flagLocalStatic ||| flagLocalEphemeral ||| flagLocalRequired ||| flagLocalHybrid |||
    flagRemoteStatic ||| flagRemoteEphemeral ||| flagRemoteHybrid
  tokens := [.e, .f, .flipDir, .e, .f, .s, .ee, .ff, .se, .es]

def noisePatternIKnoidhHfs : Pattern where
  flags := flagLocalStatic ||| flagLocalEphemeral ||| flagLocalHybrid ||| flagRemoteStatic |||
    flagRemoteEphemeral ||| flagRemoteHybrid
  tokens := [.e, .f, .s, .es, .ss, .flipDir, .e, .f, .ee, .ff, .se]

def noisePatternIXnoidhHfs : Pattern where
  flags := flagLocalStatic ||| flagLocalEphemeral ||| flagLocalHybrid ||| flagRemoteStatic |||
    flagRemoteEphemeral ||| flagRemoteHybrid
  tokens := [.e, .f, .s, .flipDir, .e, .f, .s, .ee, .ff, .se, .es]

def patterns : List (String × Pattern) :=
  [("N", noisePatternN), ("K", noisePatternK), ("X", noisePatternX), ("NN", noisePatternNN),
    ("NK", noisePatternNK), ("NX", noisePatternNX), ("XN", noisePatternXN),
    ("XK", noisePatternXK), ("XX", noisePatternXX), ("KN", noisePatternKN),
    ("KK", noisePatternKK), ("KX", noisePatternKX), ("IN", noisePatternIN),
    ("IK", noisePatternIK), ("IX", noisePatternIX), ("XXfallback", noisePatternXXfallback),
    ("Xnoidh", noisePatternXnoidh), ("NXnoidh", noisePatternNXnoidh),
    ("XXnoidh", noisePatternXXnoidh), ("KXnoidh", noisePatternKXnoidh),
    ("IKnoidh", noisePatternIKnoidh), ("IXnoidh", noisePatternIXnoidh),
    ("NNhfs", noisePatternNNhfs), ("NKhfs", noisePatternNKhfs), ("NXhfs", noisePatternNXhfs),
    ("XNhfs", noisePatternXNhfs), ("XKhfs", noisePatternXKhfs), ("XXhfs", noisePatternXXhfs),
    ("KNhfs", noisePatternKNhfs), ("KKhfs", noisePatternKKhfs), ("KXhfs", noisePatternKXhfs),
    ("INhfs", noisePatternINhfs), ("IKhfs", noisePatternIKhfs), ("IXhfs", noisePatternIXhfs),
    ("XXfallback+hfs", noisePatternXXfallbackHfs), ("NXnoidh+hfs", noisePatternNXnoidhHfs),
    ("XXnoidh+hfs", noisePatternXXnoidhHfs), ("KXnoidh+hfs", noisePatternKXnoidhHfs),
    ("IKnoidh+hfs", noisePatternIKnoidhHfs), ("IXnoidh+hfs", noisePatternIXnoidhHfs)]

def lookup (name : String) : Option Pattern := patterns.lookup name

end Pattern

end Conclave.NoiseProtocol
