/-
Error numbers that the modelled functions return or compare with.

The source takes them from `<errno.h>`; several functions mix them with `-1`,
so all return values are integers.
-/

import Mathlib.Init

namespace QuorumKit

def EPERM : Int := 1

def ENOENT : Int := 2

def EINTR : Int := 4

def EIO : Int := 5

def EAGAIN : Int := 11

def EBUSY : Int := 16

def EEXIST : Int := 17

def EINVAL : Int := 22

def ERANGE : Int := 34

def ETIMEDOUT : Int := 110

def EHOSTDOWN : Int := 112

def EHOSTUNREACH : Int := 113

def ESTALE : Int := 116

def ECANCELED : Int := 125

/-- `brpc::EREQUEST`. -/
def EREQUEST : Int := 1003

/-- `brpc::EINTERNAL`. -/
def EINTERNAL : Int := 2001

/-- `ESTOP` of bthread. -/
def ESTOP : Int := -20

def ECATCHUP : Int := 10003

def ELOGDELETED : Int := 10014

def ENOMOREUSERLOG : Int := 10015

def EREADONLY : Int := 10016

end QuorumKit
