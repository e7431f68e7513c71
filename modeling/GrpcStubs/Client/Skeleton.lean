import GrpcStubs.Schema
import GrpcStubs.Template.Layout

set_option autoImplicit false

namespace GrpcStubs.Client
open Template

/-- Bindings: `client_mod`, `client_ident`, `service_doc`, `methods`. -/
def moduleTemplate : String :=
  ofLines [
    "    /// Generated client implementations.",
    "    pub mod $client_mod$ \x7b",
    "        #![allow(",
    "            unused_variables,",
    "            dead_code,",
    "            missing_docs,",
    "            clippy::wildcard_imports,",
    "            clippy::let_unit_value,",
    "        )]",
    "        use tonic::codegen::*;",
    "        use tonic::codegen::http::Uri;",
    "",
    "        $service_doc$",
    "        #[derive(Debug, Clone)]",
    "        pub struct $client_ident$<T> \x7b",
    "            inner: tonic::client::Grpc<T>,",
    "        \x7d",
    "",
    "        impl<T> $client_ident$<T>",
    "        where",
    "            T: tonic::client::GrpcService<tonic::body::Body>,",
    "            T::Error: Into<StdError>,",
    "            T::ResponseBody: Body<Data = Bytes> + std::marker::Send + 'static,",
    "            <T::ResponseBody as Body>::Error: Into<StdError> + std::marker::Send,",
    "        \x7b",
    "            pub fn new(inner: T) -> Self \x7b",
    "                let inner = tonic::client::Grpc::new(inner);",
    "                Self \x7b inner \x7d",
    "            \x7d",
    "",
    "            pub fn with_origin(inner: T, origin: Uri) -> Self \x7b",
    "                let inner = tonic::client::Grpc::with_origin(inner, origin);",
    "                Self \x7b inner \x7d",
    "            \x7d",
    "",
    "            pub fn with_interceptor<F>(",
    "                inner: T,",
    "                interceptor: F,",
    "            ) -> $client_ident$<InterceptedService<T, F>>",
    "            where",
    "                F: tonic::service::Interceptor,",
    "                T::ResponseBody: Default,",
    "                T: tonic::codegen::Service<",
    "                    http::Request<tonic::body::Body>,",
    "                    Response = http::Response<",
    "                        <T as tonic::client::GrpcService<tonic::body::Body>>::ResponseBody,",
    "                    >,",
    "                >,",
    "                <T as tonic::codegen::Service<",
    "                    http::Request<tonic::body::Body>,",
    "                >>::Error: Into<StdError> + std::marker::Send + std::marker::Sync,",
    "            \x7b",
    "                $client_ident$::new(InterceptedService::new(inner, interceptor))",
    "            \x7d",
    "",
    "            /// Compress requests with the given encoding.",
    "            ///",
    "            /// This requires the server to support it otherwise it might respond with an",
    "            /// error.",
    "            #[must_use]",
    "            pub fn send_compressed(mut self, encoding: CompressionEncoding) -> Self \x7b",
    "                self.inner = self.inner.send_compressed(encoding);",
    "                self",
    "            \x7d",
    "",
    "            /// Enable decompressing responses.",
    "            #[must_use]",
    "            pub fn accept_compressed(mut self, encoding: CompressionEncoding) -> Self \x7b",
    "                self.inner = self.inner.accept_compressed(encoding);",
    "                self",
    "            \x7d",
    "",
    "            /// Limits the maximum size of a decoded message.",
    "            ///",
    "            /// Default: `4MB`",
    "            #[must_use]",
    "            pub fn max_decoding_message_size(mut self, limit: usize) -> Self \x7b",
    "                self.inner = self.inner.max_decoding_message_size(limit);",
    "                self",
    "            \x7d",
    "",
    "            /// Limits the maximum size of an encoded message.",
    "            ///",
    "            /// Default: `usize::MAX`",
    "            #[must_use]",
    "            pub fn max_encoding_message_size(mut self, limit: usize) -> Self \x7b",
    "                self.inner = self.inner.max_encoding_message_size(limit);",
    "                self",
    "            \x7d",
    "            $methods$",
    "        \x7d",
    "    \x7d"]

def argument (shape : Shape) : String :=
  if shape.clientStreams then "tonic::IntoStreamingRequest<Message = $request$>"
  else "tonic::IntoRequest<$request$>"

def result (shape : Shape) : List String :=
  if shape.serverStreams then [
    "    ) -> std::result::Result<",
    "        tonic::Response<tonic::codec::Streaming<$response$>>,",
    "        tonic::Status,",
    "    > \x7b"]
  else ["    ) -> std::result::Result<tonic::Response<$response$>, tonic::Status> \x7b"]

def intoRequest (shape : Shape) : String :=
  if shape.clientStreams then "into_streaming_request" else "into_request"

def callLine : Shape → String
  | .unary => "        self.inner.unary(req, path, codec).await"
  | .serverStreaming => "        self.inner.server_streaming(req, path, codec).await"
  | .clientStreaming => "        self.inner.client_streaming(req, path, codec).await"
  | .streaming => "        self.inner.streaming(req, path, codec).await"

/-- Bindings: `ident`, `request`, `response`, `codec`, `path`, `service_name`, `method_name`. -/
def methodTemplate (shape : Shape) : String :=
  ofLines ([
    "    pub async fn $ident$(",
    "        &mut self,",
    "        request: impl " ++ argument shape ++ ","] ++
    result shape ++ [
    "        self.inner",
    "            .ready()",
    "            .await",
    "            .map_err(|e| \x7b",
    "                tonic::Status::unknown(format!(\"Service was not ready: \x7b\x7d\", e.into()))",
    "            \x7d)?;",
    "        let codec = $codec$::default();",
    "        let path = http::uri::PathAndQuery::from_static(\"$path$\");",
    "        let mut req = request." ++ intoRequest shape ++ "();",
    "        req.extensions_mut().insert(GrpcMethod::new(\"$service_name$\", \"$method_name$\"));",
    callLine shape,
    "    \x7d"])

end GrpcStubs.Client
